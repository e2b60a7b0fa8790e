import ObjectMachine.Engine.Binding
import ObjectMachine.Lineage
/-!
Members. A member is looked up among the object's own members, then through a getter hook for its
name, then among the ancestors of the object's Type (or of the Type itself, if the object is one),
and last through the general getter hook. A view looks only among the ancestors that follow its
Type.
-/
namespace ObjectMachine.Engine

/-- How far a lookup goes. -/
inductive Access where
  /-- Hooks run, and functions found in a Type are bound. -/
  | full
  /-- Nothing runs, and nothing but what a view finds is bound. -/
  | probe
deriving DecidableEq

/-- Whether a name is one of a hook, for which no hooks run. -/
def isHookName (name : String) : Bool := "hook_".toList.isPrefixOf name.toList

/-- The hook of that name that applies to an object, bound to it. The own members of a Type are not
hooks for the Type itself. -/
def resolveHook (obj : Ref) (hook : String) : Engine (Option Ref) := do
  let o ← load obj
  let own := if o.payload matches .type _ then none else o.members.get? hook
  match own with
  | some value => return some value
  | none => bindFound (← ask fun h => h.memberIn? (h.mro o.typeRef) hook) obj

/-- A member that a Type has as an object: found in the Type of the Type, apart from the Type's own
ancestors. -/
def lookupOnMetatype (type : Ref) (name : String) (access : Access) : Engine (Option Ref) := do
  let found ← ask fun h =>
    let own := h.mro type
    let chain := (h.mro (h.typeOf type)).filter fun t => !own.contains t && t != type
    h.memberIn? chain name
  match access with
  | .full => bindFound found type
  | .probe => return found

/-- A member that is not found on the way: an object's Type for an object, the metatype and the
ancestors for a Type. Errors while binding a member of the metatype count as not found. -/
def lookupInherited (obj : Ref) (o : Object) (name : String) (access : Access) :
    Engine (Option Ref) := do
  match o.payload with
  | .type info =>
    match ← forgiving (lookupOnMetatype obj name access) with
    | some (some found) => return some found
    | _ => inAncestors info
  | _ =>
    let found ← ask fun h => h.memberIn? (h.mro o.typeRef) name
    match access with
    | .full => bindFound found obj
    | .probe => return found
where
  /-- The member as the proper ancestors of a Type have it. -/
  inAncestors (info : TypeInfo) : Engine (Option Ref) :=
    ask fun h => h.memberIn? (info.mro.tail.filter fun t => t != obj) name

/-- Looks up a member. -/
def lookupMember (k : Reentry) (obj : Ref) (name : String) (access : Access) :
    Engine (Option Ref) := do
  let o ← load obj
  match o.payload with
  | .baseView target cls =>
    bindFound
      (← ask fun h => h.memberIn? (Lineage.after cls (h.mro (h.typeOf target))) name) target
  | _ =>
    match o.members.get? name with
    | some value => return some value
    | none =>
      let hooks := access == .full && !isHookName name
      match ← (if hooks then resolveHook obj ("hook_get_" ++ name) else pure none) with
      | some getter => return some (← k.call getter [])
      | none =>
        match ← lookupInherited obj o name access with
        | some found => return some found
        | none =>
          match ← (if hooks then resolveHook obj "hook_get" else pure none) with
          | some hook =>
            let key ← newStr name
            return some (← k.call hook [key])
          | none => return none

/-- The member of an object. -/
def getMember (k : Reentry) (obj : Ref) (name : String) : Engine Ref := do
  if obj = .null then raise (.nullMember name)
  else
    match ← lookupMember k obj name .full with
    | some value => return value
    | none => raise (.noMember (← ask fun h => h.typeName obj) name)

/-- Refuses `null` and views as targets of a change. -/
def checkTarget (obj : Ref) (name : String) : Engine Unit := do
  if obj = .null then raise (.nullMember name)
  else
    match ← payload obj with
    | .baseView .. => raise (.throughView name)
    | _ => return ()

/-- Runs the hook for a name, or the general hook, if there is one; tells whether one ran. The
general hook gets the name as its first argument. -/
def runHook (k : Reentry) (obj : Ref) (stem name : String) (args : List Ref) : Engine Bool := do
  if isHookName name then return false
  else
    match ← resolveHook obj (stem ++ "_" ++ name) with
    | some hook =>
      let _ ← k.call hook args
      return true
    | none =>
      match ← resolveHook obj stem with
      | some hook =>
        let key ← newStr name
        let _ ← k.call hook (key :: args)
        return true
      | none => return false

/-- Writes a member, through a setter hook if there is one. -/
def setMember (k : Reentry) (obj : Ref) (name : String) (value : Ref) : Engine Unit := do
  checkTarget obj name
  if ← runHook k obj "hook_set" name [value] then return ()
  else writeMember obj name value

/-- Removes an own member, or runs a deletion hook if there is one. -/
def deleteMember (k : Reentry) (obj : Ref) (name : String) : Engine Unit := do
  checkTarget obj name
  if ← runHook k obj "hook_del" name [] then return ()
  else
    let o ← load obj
    if o.members.contains name then
      change obj (.erase name)
    else raise (.noMember (← ask fun h => h.typeName obj) name)

end ObjectMachine.Engine
