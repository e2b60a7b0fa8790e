import ObjectMachine.Engine.Natives.Texts
import ObjectMachine.Engine.Iteration
/-!
Lists, maps and ranges.
-/
namespace ObjectMachine

namespace Range

/-- The number of integers in a range. -/
def length (r : Range) : Nat :=
  let span := if 0 < r.step then r.stop.toInt - r.start.toInt else r.start.toInt - r.stop.toInt
  let step : Int := r.step.toInt.natAbs
  ((span + step - 1) / step).toNat

/-- Whether a range holds an integer. -/
def contains (r : Range) (value : Int64) : Bool :=
  let inBounds :=
    if 0 < r.step then r.start ≤ value && value < r.stop else value ≤ r.start && r.stop < value
  inBounds && (value.toInt - r.start.toInt).tmod r.step.toInt == 0

/-- The integer at a position; the steps up to it have to fit 64 bits. -/
def itemAt? (r : Range) (index : Nat) : Option Int64 :=
  (Integer.mul? r.step (Integer.wrap index)).bind fun offset => Integer.add? r.start offset

end Range

namespace Engine

/-- The items of a list. -/
def itemsOf (list : Ref) : Engine (Array Ref) := do
  match ← payload list with
  | .list items => return items
  | _ => unexpected "list" list

/-- Changes the items of a list. -/
def modifyItems (list : Ref) (f : Array Ref → Array Ref) : Engine Unit := do
  let _ ← itemsOf list
  change list (.items f)

/-- The position in a list that an index object means. -/
def listPosition (index : Ref) (length : Nat) : Engine Nat := do
  let i ← indexOf index
  match position? i length with
  | some p => return p
  | none => raise (.indexOut .list i)

/-- Whether one of the items equals a value. -/
def containsItem (k : Reentry) (value : Ref) : List Ref → Engine Bool
  | [] => return false
  | item :: later => do
    if ← equals k item value then return true else containsItem k value later

/-- Whether items are equal one by one. -/
def equalItems (k : Reentry) : List (Ref × Ref) → Engine Bool
  | [] => return true
  | (a, b) :: later => do
    if ← equals k a b then equalItems k later else return false

/-- The texts of the items of a list; the list itself is abbreviated. -/
def shownItems (k : Reentry) (list : Ref) : List Ref → Engine (List String)
  | [] => return []
  | item :: later => do
    let text ← if item = list then pure "[...]" else shown k item
    return text :: (← shownItems k list later)

/-- Runs a function on lists. -/
def runList (k : Reentry) (f : ListFunction) (args : List Ref) : Engine Ref := do
  match f, args with
  | .append, [list, item] =>
    modifyItems list (·.push item)
    return .null
  | .pop, [list] =>
    match (← itemsOf list).back? with
    | some item =>
      modifyItems list Array.pop
      return item
    | none => raise .popEmpty
  | .getItem, [list, index] =>
    let items ← itemsOf list
    match items[(← listPosition index items.size)]? with
    | some item => return item
    | none => throw .dangling
  | .setItem, [list, index, value] =>
    let i ← listPosition index (← itemsOf list).size
    modifyItems list fun items => items.setIfInBounds i value
    return .null
  | .delItem, [list, index] =>
    let i ← listPosition index (← itemsOf list).size
    modifyItems list fun items => items.eraseIdxIfInBounds i
    return .null
  | .len, [list] => newInt (Int64.ofNat (← itemsOf list).size)
  | .contains, [list, item] =>
    let items := (← itemsOf list).toList
    return .ofBool (← keepingObjects items (containsItem k item items))
  | .add, [a, b] =>
    let items ← itemsOf a
    let more ← itemsOf b
    new (.list (items ++ more))
  | .eq, [a, b] =>
    match ← payload b with
    | .list more =>
      let items ← itemsOf a
      if items.size != more.size then return .no
      else
        let pairs := items.toList.zip more.toList
        return .ofBool (← keepingObjects (items.toList ++ more.toList) (equalItems k pairs))
    | _ => return .no
  | .iter, [list] => new (.iterator (.list list 0))
  | .bool, [list] => return .ofBool (!(← itemsOf list).isEmpty)
  | .str, [list] =>
    let items := (← itemsOf list).toList
    let texts ← keepingObjects items (shownItems k list items)
    newStr ("[" ++ ", ".intercalate texts ++ "]")
  | .create, [cls, iterable] =>
    let items ← if iterable = .null then pure [] else collectItems k iterable
    newFor cls (.list items.toArray)
  | _, _ => throw .dangling

/-- The entries of a map. -/
def entriesOf (map : Ref) : Engine Entries := do
  match ← payload map with
  | .map entries => return entries
  | _ => unexpected "map" map

/-- Changes the entries of a map. -/
def modifyEntries (map : Ref) (f : Entries → Entries) : Engine Unit := do
  let _ ← entriesOf map
  change map (.entries f)

/-- The entries that operands alternating between keys and values make. -/
def entriesFrom (h : Heap) : Entries → List Ref → Entries
  | entries, key :: value :: later =>
    entriesFrom h (entries.put (h.keyOf key) key value) later
  | entries, _ => entries

/-- Stores the map of operands alternating between keys and values. -/
def newMap (operands : List Ref) : Engine Ref := do
  let entries ← ask fun h => entriesFrom h .empty operands
  new (.map entries)

/-- The texts of the entries of a map; the map itself as a value is abbreviated. -/
def shownEntries (k : Reentry) (map : Ref) : List (Ref × Ref) → Engine (List String)
  | [] => return []
  | (key, value) :: later => do
    let keyText ← shown k key
    let valueText ← if value = map then pure "\x7b...\x7d" else shown k value
    return (keyText ++ ": " ++ valueText) :: (← shownEntries k map later)

/-- Interrupts because a map does not hold a key. -/
def missingKey {α : Type} (k : Reentry) (key : Ref) : Engine α := do
  raise (.missingKey (← shown k key))

/-- Runs a function on maps. -/
def runMap (k : Reentry) (f : MapFunction) (args : List Ref) : Engine Ref := do
  match f, args with
  | .getItem, [map, key] =>
    let entries ← entriesOf map
    match entries.get? (← ask fun h => h.keyOf key) with
    | some (_, value) => return value
    | none => missingKey k key
  | .setItem, [map, key, value] =>
    let identity ← ask fun h => h.keyOf key
    modifyEntries map fun entries => entries.put identity key value
    return .null
  | .delItem, [map, key] =>
    let identity ← ask fun h => h.keyOf key
    if (← entriesOf map).contains identity then
      modifyEntries map fun entries => entries.erase identity
      return .null
    else missingKey k key
  | .get, [map, key, default] =>
    let entries ← entriesOf map
    match entries.get? (← ask fun h => h.keyOf key) with
    | some (_, value) => return value
    | none => return default
  | .keys, [map] => newList ((← entriesOf map).values.map Prod.fst)
  | .values, [map] => newList ((← entriesOf map).values.map Prod.snd)
  | .len, [map] => newInt (Int64.ofNat (← entriesOf map).size)
  | .contains, [map, key] =>
    let entries ← entriesOf map
    return .ofBool (entries.contains (← ask fun h => h.keyOf key))
  | .iter, [map] => new (.iterator (.keys map 0))
  | .bool, [map] => return .ofBool ((← entriesOf map).size != 0)
  | .str, [map] =>
    let pairs := (← entriesOf map).values
    let texts ←
      keepingObjects (pairs.flatMap fun e => [e.1, e.2]) (shownEntries k map pairs)
    newStr ("\x7b" ++ ", ".intercalate texts ++ "\x7d")
  | .create, [cls] => newFor cls (.map .empty)
  | _, _ => throw .dangling

/-- The range of an object. -/
def rangeOf (r : Ref) : Engine Range := do
  match ← payload r with
  | .range range => return range
  | _ => unexpected "range" r

/-- The ends of a range from its first two arguments: a missing end means from zero. -/
def rangeBounds (first stop : Ref) : Engine (Int64 × Int64) := do
  let a ← indexOf first
  if stop = .null then return (0, a)
  else
    match ← payload stop with
    | .int b => return (a, b)
    | _ => raise (.rangeStop (← ask fun h => h.typeName stop))

/-- The position that an index means in a range. The length and the sum are 64-bit integers; a
length beyond them wraps. -/
def rangeItem (range : Range) (index : Int64) : Engine Int64 := do
  let outside : Engine Int64 := raise (.indexOut .range index)
  let length := Integer.wrap range.length
  match if index < 0 then Integer.add? index length else some index with
  | none => throw .overflow
  | some i =>
    if i < 0 then outside
    else if i.toInt.toNat < range.length then
      match range.itemAt? i.toInt.toNat with
      | some item => return item
      | none => throw .overflow
    else outside

/-- Runs a function on ranges. -/
def runRange (f : RangeFunction) (args : List Ref) : Engine Ref := do
  match f, args with
  | .create, [cls, first, stop, step] =>
    let (start, stop) ← rangeBounds first stop
    let step : Int64 ←
      match ← payload step with
      | .int i => pure i
      | _ => pure 1
    if h : step = 0 then raise .zeroStep
    else newFor cls (.range ⟨start, stop, step, h⟩)
  | .iter, [r] =>
    let range ← rangeOf r
    new (.iterator (.range range.start range.stop range.step))
  | .len, [r] => newInt (Integer.wrap (← rangeOf r).length)
  | .contains, [r, value] =>
    let range ← rangeOf r
    match ← payload value with
    | .int i => return .ofBool (range.contains i)
    | .num x =>
      return .ofBool (x.isIntegral && range.contains x.saturate)
    | _ => return .no
  | .getItem, [r, index] => newInt (← rangeItem (← rangeOf r) (← indexOf index))
  | .str, [r] =>
    let range ← rangeOf r
    let start := toString range.start.toInt
    let stop := toString range.stop.toInt
    let step := toString range.step.toInt
    newStr <|
      if range.step = 1 then s!"range({start}, {stop})" else s!"range({start}, {stop}, {step})"
  | _, _ => throw .dangling

end Engine

end ObjectMachine
