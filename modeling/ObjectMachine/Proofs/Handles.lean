import ObjectMachine.Proofs.Storage
/-!
Which handles there are. `RefersTo` says, kind by kind and field by field, of what an object or a scope
holds a handle; the lists of links that a collection follows name exactly these nodes. `Heap.Reaches` is
reachability from roots along handles.
-/
namespace ObjectMachine

theorem mem_objectNodes {l : List Ref} {n : Node} : n ∈ objectNodes l ↔ ∃ r ∈ l, n = .object r := by
  simp only [objectNodes, List.mem_map, eq_comm]

namespace ErrorBody

/-- The handles in an error without its causes. -/
inductive RefersTo (e : ErrorBody) : Node → Prop where
  | type {type : Ref} (custom : e.type = .custom type) : e.RefersTo (.object type)
  | value {r : Ref} (made : e.value = some r) : e.RefersTo (.object r)
  | shown {name : String} {r : Ref} (mem : (name, r) ∈ e.payload) : e.RefersTo (.object r)
  | argument {layer : Layer} {r : Ref} (passed : layer ∈ e.trace) (mem : r ∈ layer.args) :
    e.RefersTo (.object r)

theorem mem_links_iff {e : ErrorBody} {n : Node} : n ∈ e.links ↔ e.RefersTo n := by
  simp only [links, traceLinks, List.mem_append, List.mem_flatMap, mem_objectNodes]
  constructor
  · rintro (((custom | ⟨r, made, rfl⟩) | ⟨r, mem, rfl⟩) | ⟨layer, passed, r, mem, rfl⟩)
    · cases type : e.type with
      | builtin kind => simp [type, ErrorType.links] at custom
      | custom r =>
        simp only [type, ErrorType.links, List.mem_singleton] at custom
        exact custom ▸ .type type
    · exact .value (by simpa using made)
    · obtain ⟨⟨name, _⟩, shown, rfl⟩ := List.mem_map.mp mem
      exact .shown shown
    · exact .argument passed mem
  · rintro (custom | made | shown | ⟨passed, mem⟩)
    · exact .inl (.inl (.inl (by simp [custom, ErrorType.links])))
    · exact .inl (.inl (.inr ⟨_, by simp [made], rfl⟩))
    · exact .inl (.inr ⟨_, List.mem_map_of_mem (f := Prod.snd) shown, rfl⟩)
    · exact .inr ⟨_, passed, _, mem, rfl⟩

end ErrorBody

namespace Pending

/-- The handles in a pending outcome: the value to return, or those of the error and its causes. -/
inductive RefersTo : Pending → Node → Prop where
  | value (r : Ref) : RefersTo (.leave r) (.object r)
  | error {e : Raised} {n : Node} (refers : e.toErrorBody.RefersTo n) : RefersTo (.rethrow e) n
  | cause {e : Raised} {cause : ErrorBody} {n : Node} (mem : cause ∈ e.causes)
    (refers : cause.RefersTo n) : RefersTo (.rethrow e) n

theorem mem_links_iff {p : Pending} {n : Node} : n ∈ p.links ↔ p.RefersTo n := by
  cases p with
  | proceed => exact ⟨(nomatch ·), (nomatch ·)⟩
  | leave r =>
    simp only [links, List.mem_singleton]
    exact ⟨fun h => h ▸ .value r, fun h => by cases h; rfl⟩
  | rethrow e =>
    simp only [links, Raised.links, List.mem_append, List.mem_flatMap, ErrorBody.mem_links_iff]
    constructor
    · rintro (refers | ⟨cause, mem, refers⟩)
      · exact .error refers
      · exact .cause mem refers
    · rintro (_ | refers | ⟨mem, refers⟩)
      · exact .inl refers
      · exact .inr ⟨_, mem, refers⟩

end Pending

namespace Activation

/-- The handles in a run of code: operands, the value to return, the scope and the first scope. -/
inductive RefersTo (a : Activation) : Node → Prop where
  | operand {r : Ref} (mem : r ∈ a.stack) : a.RefersTo (.object r)
  | returned {r : Ref} (ends : a.returned = some r) : a.RefersTo (.object r)
  | scope : a.RefersTo (.scope a.scope)
  | baseScope : a.RefersTo (.scope a.baseScope)

theorem mem_links_iff {a : Activation} {n : Node} : n ∈ a.links ↔ a.RefersTo n := by
  simp only [links, List.mem_append, mem_objectNodes, Option.mem_toList, List.mem_cons,
    List.not_mem_nil, or_false]
  constructor
  · rintro ((⟨r, mem, rfl⟩ | ⟨r, ends, rfl⟩) | rfl | rfl)
    · exact .operand mem
    · exact .returned ends
    · exact .scope
    · exact .baseScope
  · rintro (mem | ends | _ | _)
    · exact .inl (.inl ⟨_, mem, rfl⟩)
    · exact .inl (.inr ⟨_, ends, rfl⟩)
    · exact .inr (.inl rfl)
    · exact .inr (.inr rfl)

end Activation

namespace Frame

/-- The handles in a frame: those of its own run, and those of the runs that wait in it, with what is
pending there. -/
inductive RefersTo (f : Frame) : Node → Prop where
  | own {n : Node} (refers : f.toActivation.RefersTo n) : f.RefersTo n
  | waiting {p : Parked} {n : Node} (mem : p ∈ f.parked) (refers : p.body.RefersTo n) : f.RefersTo n
  | pending {p : Parked} {n : Node} (mem : p ∈ f.parked) (refers : p.pending.RefersTo n) :
    f.RefersTo n

theorem mem_links_iff {f : Frame} {n : Node} : n ∈ f.links ↔ f.RefersTo n := by
  simp only [links, List.mem_append, List.mem_flatMap, Activation.mem_links_iff,
    Pending.mem_links_iff]
  constructor
  · rintro (refers | ⟨p, mem, refers | refers⟩)
    · exact .own refers
    · exact .waiting mem refers
    · exact .pending mem refers
  · rintro (refers | ⟨mem, refers⟩ | ⟨mem, refers⟩)
    · exact .inl refers
    · exact .inr ⟨_, mem, .inl refers⟩
    · exact .inr ⟨_, mem, .inr refers⟩

end Frame

namespace Function

/-- The handles in a function: its bound arguments, the declared Types and the defaults of its
parameters, and the scope in which its code was defined. -/
inductive RefersTo (f : Function) : Node → Prop where
  | bound {r : Ref} (mem : r ∈ f.bound) : f.RefersTo (.object r)
  | declared {p : Param} {r : Ref} (mem : p ∈ f.signature.params) (type : p.type = some r) :
    f.RefersTo (.object r)
  | default {p : Param} {r : Ref} (mem : p ∈ f.signature.params) (value : p.default = some r) :
    f.RefersTo (.object r)
  | captured {code : Code} {s : ScopeRef} {generator : Bool}
    (body : f.body = .code code s generator) : f.RefersTo (.scope s)

theorem mem_links_iff {f : Function} {n : Node} : n ∈ f.links ↔ f.RefersTo n := by
  simp only [links, Param.links, List.mem_append, List.mem_flatMap, mem_objectNodes,
    Option.mem_toList]
  constructor
  · rintro ((⟨r, mem, rfl⟩ | ⟨p, mem, ⟨r, type, rfl⟩ | ⟨r, value, rfl⟩⟩) | captured)
    · exact .bound mem
    · exact .declared mem type
    · exact .default mem value
    · cases body : f.body with
      | native n => simp [body] at captured
      | code code s generator =>
        simp only [body, List.mem_singleton] at captured
        exact captured ▸ .captured body
  · rintro (mem | ⟨mem, type⟩ | ⟨mem, value⟩ | body)
    · exact .inl (.inl ⟨_, mem, rfl⟩)
    · exact .inl (.inr ⟨_, mem, .inl ⟨_, type, rfl⟩⟩)
    · exact .inl (.inr ⟨_, mem, .inr ⟨_, value, rfl⟩⟩)
    · exact .inr (by simp [body])

end Function

namespace Payload

/-- The handles in the payload of an object. -/
inductive RefersTo : Payload → Node → Prop where
  | item {items : Array Ref} {r : Ref} (mem : r ∈ items) : RefersTo (.list items) (.object r)
  | key {entries : Entries} {k : Key} {key value : Ref} (mem : (k, key, value) ∈ entries.entries) :
    RefersTo (.map entries) (.object key)
  | value {entries : Entries} {k : Key} {key value : Ref} (mem : (k, key, value) ∈ entries.entries) :
    RefersTo (.map entries) (.object value)
  | parent {info : TypeInfo} {r : Ref} (mem : r ∈ info.parents) : RefersTo (.type info) (.object r)
  | ancestor {info : TypeInfo} {r : Ref} (mem : r ∈ info.mro) : RefersTo (.type info) (.object r)
  | function {f : Function} {n : Node} (refers : f.RefersTo n) : RefersTo (.function f) n
  | viewed (target cls : Ref) : RefersTo (.baseView target cls) (.object target)
  | viewedAfter (target cls : Ref) : RefersTo (.baseView target cls) (.object cls)
  | list (list : Ref) (index : Nat) : RefersTo (.iterator (.list list index)) (.object list)
  | text (text : Ref) (offset : Nat) : RefersTo (.iterator (.text text offset)) (.object text)
  | keys (map : Ref) (index : Nat) : RefersTo (.iterator (.keys map index)) (.object map)
  | fresh {name : String} {f : Frame} {n : Node} (refers : f.RefersTo n) :
    RefersTo (.generator name (.fresh f)) n
  | suspended {name : String} {f : Frame} {n : Node} (refers : f.RefersTo n) :
    RefersTo (.generator name (.suspended f)) n
  | argument {trace : List Layer} {causes : List ErrorBody} {layer : Layer} {r : Ref}
    (passed : layer ∈ trace) (mem : r ∈ layer.args) : RefersTo (.error trace causes) (.object r)
  | cause {trace : List Layer} {causes : List ErrorBody} {e : ErrorBody} {n : Node}
    (mem : e ∈ causes) (refers : e.RefersTo n) : RefersTo (.error trace causes) n

/-- No payload has a handle that its links leave out, and no link is without a handle. -/
theorem mem_links_iff {p : Payload} {n : Node} : n ∈ p.links ↔ p.RefersTo n := by
  cases p with
  | list items =>
    simp only [links, mem_objectNodes, Array.mem_toList_iff]
    constructor
    · rintro ⟨r, mem, rfl⟩
      exact .item mem
    · rintro ⟨mem⟩
      exact ⟨_, mem, rfl⟩
  | map entries =>
    simp only [links, Table.values, List.mem_flatMap, List.mem_map, List.mem_cons, List.not_mem_nil,
      or_false]
    constructor
    · rintro ⟨_, ⟨⟨k, key, value⟩, mem, rfl⟩, rfl | rfl⟩
      · exact .key mem
      · exact .value mem
    · intro refers
      cases refers with
      | key mem => exact ⟨_, ⟨_, mem, rfl⟩, .inl rfl⟩
      | value mem => exact ⟨_, ⟨_, mem, rfl⟩, .inr rfl⟩
  | type info =>
    simp only [links, List.mem_append, mem_objectNodes]
    constructor
    · rintro (⟨r, mem, rfl⟩ | ⟨r, mem, rfl⟩)
      · exact .parent mem
      · exact .ancestor mem
    · intro refers
      cases refers with
      | parent mem => exact .inl ⟨_, mem, rfl⟩
      | ancestor mem => exact .inr ⟨_, mem, rfl⟩
  | function f =>
    rw [links, Function.mem_links_iff]
    exact ⟨.function, fun refers => by cases refers; assumption⟩
  | baseView target cls =>
    simp only [links, List.mem_cons, List.not_mem_nil, or_false]
    constructor
    · rintro (rfl | rfl)
      · exact .viewed target cls
      · exact .viewedAfter target cls
    · intro refers
      cases refers with
      | viewed => exact .inl rfl
      | viewedAfter => exact .inr rfl
  | iterator cursor =>
    cases cursor with
    | list r index =>
      simp only [links, Cursor.links, List.mem_singleton]
      exact ⟨fun h => h ▸ .list r index, fun refers => by cases refers; rfl⟩
    | text r offset =>
      simp only [links, Cursor.links, List.mem_singleton]
      exact ⟨fun h => h ▸ .text r offset, fun refers => by cases refers; rfl⟩
    | keys r index =>
      simp only [links, Cursor.links, List.mem_singleton]
      exact ⟨fun h => h ▸ .keys r index, fun refers => by cases refers; rfl⟩
    | range next stop step => exact ⟨(nomatch ·), (nomatch ·)⟩
  | generator name state =>
    cases state with
    | fresh f =>
      rw [links, GeneratorState.links, Frame.mem_links_iff]
      exact ⟨.fresh, fun refers => by cases refers; assumption⟩
    | suspended f =>
      rw [links, GeneratorState.links, Frame.mem_links_iff]
      exact ⟨.suspended, fun refers => by cases refers; assumption⟩
    | running => exact ⟨(nomatch ·), (nomatch ·)⟩
    | finished => exact ⟨(nomatch ·), (nomatch ·)⟩
  | error trace causes =>
    -- the causes are plain errors: they have no causes of their own
    simp only [links, traceLinks, List.mem_append, List.mem_flatMap, mem_objectNodes,
      ErrorBody.mem_links_iff]
    constructor
    · rintro (⟨layer, passed, r, mem, rfl⟩ | ⟨e, mem, refers⟩)
      · exact .argument passed mem
      · exact .cause mem refers
    · intro refers
      cases refers with
      | argument passed mem => exact .inl ⟨_, passed, _, mem, rfl⟩
      | cause mem refers => exact .inr ⟨_, mem, refers⟩
  | _ => exact ⟨(nomatch ·), (nomatch ·)⟩

end Payload

namespace Object

/-- The handles in an object: its Type, its members, and those of its payload. -/
inductive RefersTo (o : Object) : Node → Prop where
  | type {r : Ref} (own : o.type = some r) : o.RefersTo (.object r)
  | member {name : String} {r : Ref} (mem : (name, r) ∈ o.members.entries) : o.RefersTo (.object r)
  | payload {n : Node} (refers : o.payload.RefersTo n) : o.RefersTo n

theorem mem_links_iff {o : Object} {n : Node} : n ∈ o.links ↔ o.RefersTo n := by
  simp only [links, List.mem_append, mem_objectNodes, Option.mem_toList, Table.values, List.mem_map,
    Payload.mem_links_iff]
  constructor
  · rintro ((⟨r, own, rfl⟩ | ⟨_, ⟨⟨name, r⟩, mem, rfl⟩, rfl⟩) | refers)
    · exact .type own
    · exact .member mem
    · exact .payload refers
  · rintro (own | mem | refers)
    · exact .inl (.inl ⟨_, own, rfl⟩)
    · exact .inl (.inr ⟨_, ⟨_, mem, rfl⟩, rfl⟩)
    · exact .inr refers

end Object

namespace Scope

/-- The handles in a scope: its variables and the scope around it. -/
inductive RefersTo (s : Scope) : Node → Prop where
  | variable {name : String} {r : Ref} (mem : (name, r) ∈ s.vars.entries) : s.RefersTo (.object r)
  | outer {around : ScopeRef} (own : s.outer = some around) : s.RefersTo (.scope around)

theorem mem_links_iff {s : Scope} {n : Node} : n ∈ s.links ↔ s.RefersTo n := by
  simp only [links, List.mem_append, mem_objectNodes, Option.mem_toList, Table.values, List.mem_map,
    Option.map_eq_some_iff]
  constructor
  · rintro (⟨_, ⟨⟨name, r⟩, mem, rfl⟩, rfl⟩ | ⟨around, own, rfl⟩)
    · exact .variable mem
    · exact .outer own
  · rintro (mem | own)
    · exact .inl ⟨_, ⟨_, mem, rfl⟩, rfl⟩
    · exact .inr ⟨_, own, rfl⟩

end Scope

namespace Heap

variable {h : Heap}

/-- Whether the slot of a node holds something. -/
def Occupied (h : Heap) : Node → Prop
  | .object r => (h.object? r).isSome
  | .scope s => (h.scope? s).isSome

/-- A node holds a handle of another one. -/
inductive RefersTo (h : Heap) : Node → Node → Prop where
  | object {r : Ref} {o : Object} {n : Node} (found : h.object? r = some o) (refers : o.RefersTo n) :
    h.RefersTo (.object r) n
  | scope {s : ScopeRef} {scope : Scope} {n : Node} (found : h.scope? s = some scope)
    (refers : scope.RefersTo n) : h.RefersTo (.scope s) n

theorem mem_linksOf_iff {n l : Node} : l ∈ h.linksOf n ↔ h.RefersTo n l := by
  cases n with
  | object r =>
    simp only [linksOf]
    cases found : h.object? r with
    | none =>
      refine ⟨fun mem => by simp at mem, fun refers => ?_⟩
      cases refers with
      | object found' refers => simp [found] at found'
    | some o =>
      simp only [Option.map_some, Option.getD_some, Object.mem_links_iff]
      refine ⟨.object found, fun refers => ?_⟩
      cases refers with
      | object found' refers =>
        obtain rfl : o = _ := Option.some.inj (found.symm.trans found')
        exact refers
  | scope s =>
    simp only [linksOf]
    cases found : h.scope? s with
    | none =>
      refine ⟨fun mem => by simp at mem, fun refers => ?_⟩
      cases refers with
      | scope found' refers => simp [found] at found'
    | some scope =>
      simp only [Option.map_some, Option.getD_some, Scope.mem_links_iff]
      refine ⟨.scope found, fun refers => ?_⟩
      cases refers with
      | scope found' refers =>
        obtain rfl : scope = _ := Option.some.inj (found.symm.trans found')
        exact refers

/-- The nodes that can be reached along handles from given roots, the singletons and the built-in
Types. -/
inductive Reaches (h : Heap) (roots : List Node) : Node → Prop where
  | root {n : Node} (mem : n ∈ roots) : h.Reaches roots n
  | singleton {r : Ref} (mem : r ∈ Ref.singletons) : h.Reaches roots (.object r)
  | kind (k : Kind) : h.Reaches roots (.object k.ref)
  | errorKind (k : ErrorKind) : h.Reaches roots (.object k.ref)
  | handle {n l : Node} (reached : h.Reaches roots n) (refers : h.RefersTo n l) : h.Reaches roots l

end Heap

end ObjectMachine
