import ObjectMachine.Proofs.Balance
import ObjectMachine.Proofs.Population
/-!
How a call finds its function. A value that is no function is called through the member `op_call` of its
Type, and that again through its own. These hops enter no frame, so the limit on nested calls does not
count them. They come to an end exactly if they do not run in a circle; then there are no more of them than
there are objects. In a circle they go on for ever, and nothing that a program could catch ever stops them.
-/
namespace ObjectMachine

namespace Heap

variable {h : Heap} {callee target r r' : Ref} {i j n : Nat}

/-! ### Hops -/

/-- What a value that is no function is called through: the member `op_call` of its Type. -/
def delegate? (h : Heap) (r : Ref) : Option Ref :=
  match h.payload? r with
  | none | some (.function _) => none
  | some _ => h.memberIn? (h.mro (h.typeOf r)) "op_call"

/-- What a value is called through after some hops. -/
def delegateAfter? (h : Heap) : Nat → Ref → Option Ref
  | 0, r => some r
  | n + 1, r => (h.delegate? r).bind (h.delegateAfter? n)

/-- After some hops from a value, there is something that is called through nothing else. -/
def Resolves (h : Heap) (callee : Ref) (n : Nat) (target : Ref) : Prop :=
  h.delegateAfter? n callee = some target ∧ h.delegate? target = none

/-- The hops from a value lead to some value more than once. -/
def Circles (h : Heap) (callee : Ref) : Prop :=
  ∃ i j r, i < j ∧ h.delegateAfter? i callee = some r ∧ h.delegateAfter? j callee = some r

theorem delegateAfter?_add (h : Heap) (i j : Nat) (r : Ref) :
    h.delegateAfter? (i + j) r = (h.delegateAfter? i r).bind (h.delegateAfter? j) := by
  induction i generalizing r with
  | zero => rw [Nat.zero_add, delegateAfter?, Option.bind_some]
  | succ i ih =>
    rw [Nat.succ_add, delegateAfter?, delegateAfter?, Option.bind_assoc]
    exact congrArg (h.delegate? r).bind (funext ih)

theorem delegateAfter?_succ (h : Heap) (n : Nat) (r : Ref) :
    h.delegateAfter? (n + 1) r = (h.delegateAfter? n r).bind h.delegate? := by
  rw [delegateAfter?_add]
  refine congrArg (h.delegateAfter? n r).bind (funext fun r' => ?_)
  simp only [delegateAfter?, Option.bind_fun_some]

theorem occupied_of_delegate? (next : h.delegate? r = some r') : h.objects.occupied r.slot := by
  simp only [delegate?] at next
  split at next
  · cases next
  · cases next
  · rename_i found
    obtain ⟨o, at_r, -⟩ := Option.map_eq_some_iff.mp found
    exact Option.isSome_iff_exists.mpr ⟨o, at_r⟩

/-- Hops that end lead nowhere after their end. -/
theorem Resolves.delegateAfter?_eq_none (resolves : h.Resolves callee n target) (late : n < i) :
    h.delegateAfter? i callee = none := by
  obtain ⟨k, rfl⟩ := Nat.exists_eq_add_of_lt late
  rw [Nat.add_assoc, delegateAfter?_add, resolves.1, Option.bind_some, delegateAfter?, resolves.2,
    Option.bind_none]

/-- Hops that end do not run in a circle: once they came back they would come back again and again. -/
theorem Resolves.not_circles (resolves : h.Resolves callee n target) : ¬ h.Circles callee := by
  rintro ⟨i, j, r, lt, first, again⟩
  obtain ⟨k, rfl⟩ := Nat.exists_eq_add_of_lt lt
  have back : h.delegateAfter? (k + 1) r = some r := by
    rw [Nat.add_assoc, delegateAfter?_add, first, Option.bind_some] at again
    exact again
  have turns (t : Nat) : h.delegateAfter? (t * (k + 1)) r = some r := by
    induction t with
    | zero => rw [Nat.zero_mul, delegateAfter?]
    | succ t ih => rw [Nat.succ_mul, delegateAfter?_add, ih, Option.bind_some, back]
  have late : n < i + (n + 1) * (k + 1) := by
    have : n + 1 ≤ (n + 1) * (k + 1) := Nat.le_mul_of_pos_right (n + 1) (Nat.succ_pos k)
    omega
  have gone := resolves.delegateAfter?_eq_none late
  rw [delegateAfter?_add, first, Option.bind_some, turns] at gone
  cases gone

/-- Hops lead on as long as they do not end. -/
theorem exists_delegateAfter? (on : ∀ i < n, ∀ target, ¬ h.Resolves callee i target) :
    ∃ r, h.delegateAfter? n callee = some r := by
  induction n with
  | zero => exact ⟨callee, rfl⟩
  | succ n ih =>
    obtain ⟨r, found⟩ := ih fun i lt => on i (Nat.lt_succ_of_lt lt)
    have goes : h.delegate? r ≠ none := fun last => on n (Nat.lt_succ_self n) r ⟨found, last⟩
    obtain ⟨next, delegate⟩ := Option.ne_none_iff_exists'.mp goes
    exact ⟨next, by rw [delegateAfter?_succ, found, Option.bind_some, delegate]⟩

/-- Hops that do not run in a circle end before they met more objects than there are. -/
theorem exists_resolves (straight : ¬ h.Circles callee) :
    ∃ n ≤ h.objects.live, ∃ target, h.Resolves callee n target := by
  by_contra endless
  push Not at endless
  -- otherwise as many hops as there are objects, and one more, all start from an object
  have hops (i : Nat) (le : i ≤ h.objects.live + 1) : ∃ r, h.delegateAfter? i callee = some r :=
    exists_delegateAfter? fun k lt => endless k (by omega)
  let met (i : Nat) : Nat := ((h.delegateAfter? i callee).getD callee).slot
  have meets (i : Nat) (lt : i < h.objects.live + 1) : met i ∈ h.objects.inUse := by
    obtain ⟨r, found⟩ := hops i lt.le
    obtain ⟨next, goes⟩ := hops (i + 1) lt
    rw [delegateAfter?_succ, found, Option.bind_some] at goes
    simp only [met, found, Option.getD_some]
    exact Arena.mem_inUse.mpr (occupied_of_delegate? goes)
  have fewer : h.objects.inUse.card < (Finset.range (h.objects.live + 1)).card := by
    rw [Arena.card_inUse, Finset.card_range]
    exact Nat.lt_succ_self _
  obtain ⟨i, iLt, j, jLt, ne, same⟩ := Finset.exists_ne_map_eq_of_card_lt_of_maps_to fewer
    (fun i mem => meets i (Finset.mem_range.mp mem))
  obtain ⟨r, foundI⟩ := hops i (Finset.mem_range.mp iLt).le
  obtain ⟨r', foundJ⟩ := hops j (Finset.mem_range.mp jLt).le
  have equal : r = r' := by
    simp only [met, foundI, foundJ, Option.getD_some] at same
    exact congrArg Ref.mk same
  subst equal
  rcases Nat.lt_or_gt_of_ne ne with lt | gt
  · exact straight ⟨i, j, r, lt, foundI, foundJ⟩
  · exact straight ⟨j, i, r, gt, foundJ, foundI⟩

/-- A function has places for arguments, which may not fit; no other value has any. -/
theorem prepare_cases (h : Heap) (callee : Ref) (args : List Ref) :
    (∃ f, h.payload? callee = some (.function f)) ∧ h.prepare callee args ≠ .ok none ∨
      (∀ f, h.payload? callee ≠ some (.function f)) ∧ h.prepare callee args = .ok none := by
  simp only [prepare]
  split
  · rename_i f function
    refine .inl ⟨⟨f, function⟩, ?_⟩
    split <;> simp
  · rename_i other
    exact .inr ⟨other, rfl⟩

/-- An object that is no function is called through the member of its Type. -/
theorem delegate?_eq {o : Object} (found : h.object? r = some o)
    (other : ∀ f, h.payload? r ≠ some (.function f)) :
    h.delegate? r = h.memberIn? (h.mro (h.typeOf r)) "op_call" := by
  simp only [delegate?]
  split
  · rename_i vacant
    rw [payload?, found] at vacant
    cases vacant
  · rename_i f function
    exact absurd function (other f)
  · rfl

theorem not_function_of_delegate? (next : h.delegate? r = some r') (f : Function) :
    h.payload? r ≠ some (.function f) := by
  intro function
  simp only [delegate?, function] at next
  cases next

/-- Where there is a hop, there is an object that is no function, and its Type has the member. -/
theorem exists_of_delegate? (next : h.delegate? callee = some r) (args : List Ref) :
    (∃ o, h.object? callee = some o) ∧ h.prepare callee args = .ok none ∧
      h.memberIn? (h.mro (h.typeOf callee)) "op_call" = some r := by
  have other := not_function_of_delegate? next
  obtain ⟨o, found⟩ := Option.isSome_iff_exists.mp (occupied_of_delegate? next)
  refine ⟨⟨o, found⟩, ?_, (delegate?_eq found other).symm.trans next⟩
  rcases h.prepare_cases callee args with ⟨⟨f, function⟩, -⟩ | ⟨-, unprepared⟩
  · exact absurd function (other f)
  · exact unprepared

end Heap

/-! ### Moments of a call -/

/-- A moment that looks something up, and nests nothing: an object that is there is read, or a question is
asked. -/
def Moment.LooksUp (h : Heap) (depth : Nat) : Moment → Prop
  | acts (.load r) _ m => m.depth = depth ∧ h.object? r ≠ none
  | acts (.ask _) _ m => m.depth = depth
  | _ => False

/-- A moment that settles how a call goes on, once what is called was found. -/
def Moment.Settles (h : Heap) (depth : Nat) (target : Ref) : Moment → Prop
  -- a function enters a frame, or calls are nested too deeply for it
  | enters m => m.depth = depth ∧ ∃ f, h.payload? target = some (.function f)
  | refuses m => m.depth = depth ∧ (∃ f, h.payload? target = some (.function f)) ∧
    ∃ limit, h.depthLimit = some limit ∧ limit ≤ depth
  -- the arguments do not fit
  | throws (.raised e) _ => ∃ args, h.prepare target args = .error e
  -- it cannot be called, or is not there
  | acts (.raise c) _ _ => h.object? target ≠ none ∧ c = .notCallable (h.typeName target)
  | acts (.load r) _ _ => h.object? target = none ∧ r = target
  | _ => False

theorem Moment.LooksUp.not_settles {h : Heap} {depth : Nat} {target : Ref} {moment : Moment}
    (looks : moment.LooksUp h depth) : ¬ moment.Settles h depth target := by
  intro settles
  cases moment with
  | acts o held m =>
    cases o with
    | load r =>
      obtain ⟨vacant, rfl⟩ := settles
      exact looks.2 vacant
    | ask f => exact settles
    | _ => exact looks
  | _ => exact looks

/-- Calls are refused at the limit of depth. -/
theorem Machine.limit_of_enter_error {m : Machine} {e : Exhaustion} (refused : m.enter = .error e) :
    ∃ limit, m.heap.depthLimit = some limit ∧ limit ≤ m.depth := by
  by_contra shallow
  push Not at shallow
  have checked : m.heap.budget.checkDepth m.depth = .ok () := by
    rw [Budget.checkDepth_eq]
    cases limited : m.heap.budget.depthLimit with
    | none => rfl
    | some limit => exact if_neg (Nat.not_le_of_lt (shallow limit limited))
  simp only [enter, checked] at refused
  cases refused

namespace Engine

variable {due : Schedule} {held : List Node} {m : Machine} {callee method target : Ref} {args : List Ref}
  {fuel n : Nat}

/-- With some fuel, a call looks things up, and then it is settled how it goes on. -/
def CallSettles (due : Schedule) (held : List Node) (m : Machine) (callee : Ref) (args : List Ref)
    (fuel : Nat) (target : Ref) : Prop :=
  ∃ lookups settled later,
    (callWith fuel callee args).history due held m = lookups ++ settled :: later ∧
      (∀ l ∈ lookups, l.LooksUp m.heap m.depth) ∧ settled.Settles m.heap m.depth target

/-- A call uses up some fuel by looking things up, and does nothing else. -/
def CallExhausts (due : Schedule) (held : List Node) (m : Machine) (callee : Ref) (args : List Ref)
    (fuel : Nat) : Prop :=
  (∃ m', (callWith fuel callee args).runUnder due m = .error .outOfFuel m') ∧
    ∀ moment ∈ (callWith fuel callee args).history due held m,
      moment.LooksUp m.heap m.depth ∨ ∃ m', moment = .throws .outOfFuel m'

theorem CallExhausts.not_settles (exhausts : CallExhausts due held m callee args fuel) :
    ¬ CallSettles due held m callee args fuel target := by
  rintro ⟨lookups, settled, later, moments, -, settles⟩
  have mem : settled ∈ (callWith fuel callee args).history due held m := by
    rw [moments]
    exact List.mem_append_right lookups List.mem_cons_self
  rcases exhausts.2 settled mem with looks | ⟨m', rfl⟩
  · exact looks.not_settles settles
  · exact settles

variable (due held args)

/-- The moments in which the arguments of a callee are put in their places. -/
def preparing (callee : Ref) (held : List Node) (args : List Ref) (m : Machine) : List Moment :=
  [.acts (.load callee) held m, .acts (.ask fun h => h.prepare callee args) held m]

/-- The moment in which the member is looked up that a callee is called through. -/
def delegating (callee : Ref) (held : List Node) (m : Machine) : Moment :=
  .acts (.ask fun h => h.memberIn? (h.mro (h.typeOf callee)) "op_call") held m

theorem looksUp_preparing {o : Object} {now : Machine} (found : m.heap.object? callee = some o)
    (same : now.depth = m.depth) :
    ∀ l ∈ preparing callee held args now, l.LooksUp m.heap m.depth := by
  have occupied : m.heap.object? callee ≠ none := found ▸ Option.some_ne_none o
  exact List.forall_mem_cons.mpr ⟨⟨same, occupied⟩, List.forall_mem_singleton.mpr same⟩

/-- A call puts the arguments in their places first. What it goes through next depends on what is called. -/
theorem history_call {o : Object} {now : Machine} (found : m.heap.object? callee = some o)
    (start : now = m.pushRoots (objectNodes (callee :: args))) (fuel : Nat) :
    (callWith (fuel + 1) callee args).history due held m =
      preparing callee held args now ++
        match m.heap.prepare callee args with
        | .error e => [.throws (.raised e) now]
        | .ok (some prepared) => (invokeWith fuel prepared).history due held now
        | .ok none =>
          delegating callee held now ::
            match m.heap.memberIn? (m.heap.mro (m.heap.typeOf callee)) "op_call" with
            | some method => (callWith fuel method (callee :: args)).history due held now
            | none =>
              [.acts (.ask fun h => h.typeName callee) held now,
                .acts (.raise (.notCallable (m.heap.typeName callee)) : Op Ref) held now] := by
  subst start
  simp only [callWith, call, keepingObjects, history, prepare, Bind.bind, Pure.pure, load, ask, runUnder,
    Op.perform, Machine.heap_pushRoots, found]
  cases m.heap.prepare callee args with
  | error e => rfl
  | ok prepared =>
    cases prepared with
    | some prepared => rfl
    | none =>
      simp only [history, runUnder, Op.perform, Machine.heap_pushRoots, List.append_assoc]
      cases m.heap.memberIn? (m.heap.mro (m.heap.typeOf callee)) "op_call" with
      | some method => rfl
      | none => rfl

/-- A function is run one call deeper, if the budget lets it. -/
theorem history_invoke (prepared : Prepared) (fuel : Nat) :
    ∃ settled later, (invokeWith (fuel + 1) prepared).history due held m = settled :: later ∧
      (settled = .enters m ∨
        settled = .refuses m ∧ ∃ limit, m.heap.depthLimit = some limit ∧ limit ≤ m.depth) := by
  rw [invokeWith]
  simp only [invoke, history, Machine.historyInside]
  cases refused : m.enter with
  | error e => exact ⟨_, [], rfl, .inr ⟨rfl, Machine.limit_of_enter_error refused⟩⟩
  | ok inner => exact ⟨_, _, rfl, .inl rfl⟩

/-- One hop looks up the callee and its member, and calls the member with the callee in front of the
arguments. -/
theorem history_hop (next : m.heap.delegate? callee = some method) (fuel : Nat) :
    ∃ lookups, (∀ l ∈ lookups, l.LooksUp m.heap m.depth) ∧
      (callWith (fuel + 1) callee args).history due held m =
        lookups ++ (callWith fuel method (callee :: args)).history due held
          (m.pushRoots (objectNodes (callee :: args))) := by
  obtain ⟨⟨o, found⟩, unprepared, member⟩ := Heap.exists_of_delegate? next args
  obtain ⟨now, start⟩ : ∃ now, now = m.pushRoots (objectNodes (callee :: args)) := ⟨_, rfl⟩
  have same : now.depth = m.depth := start ▸ rfl
  have looked := looksUp_preparing held args found same
  refine ⟨preparing callee held args now ++ [delegating callee held now],
    List.forall_mem_append.mpr ⟨looked, List.forall_mem_singleton.mpr same⟩, ?_⟩
  rw [history_call due held args found start, unprepared, member, ← start, List.append_assoc]
  rfl

theorem runUnder_hop (next : m.heap.delegate? callee = some method) (fuel : Nat) :
    (callWith (fuel + 1) callee args).runUnder due m =
      dropRoots m.roots.size ((callWith fuel method (callee :: args)).runUnder due
        (m.pushRoots (objectNodes (callee :: args)))) := by
  obtain ⟨⟨o, found⟩, unprepared, member⟩ := Heap.exists_of_delegate? next args
  simp only [callWith, call, keepingObjects, prepare, Bind.bind, Pure.pure, load, ask, runUnder,
    Op.perform, Machine.heap_pushRoots, found, unprepared, member]

theorem history_vacant (vacant : m.heap.object? callee = none) (fuel : Nat) :
    (callWith (fuel + 1) callee args).history due held m =
      [.acts (.load callee) held (m.pushRoots (objectNodes (callee :: args)))] := by
  simp only [callWith, call, keepingObjects, history, prepare, Bind.bind, load, runUnder, Op.perform,
    Machine.heap_pushRoots, vacant, List.append_nil]

variable {due held args}

/-- Where there is no further hop, the call is settled. -/
theorem callSettles_of_last (last : m.heap.delegate? callee = none) (fuel : Nat) :
    CallSettles due held m callee args (fuel + 2) callee := by
  cases found : m.heap.object? callee with
  | none => exact ⟨[], _, [], history_vacant due held args found _, List.forall_mem_nil _, found, rfl⟩
  | some o =>
    obtain ⟨now, start⟩ : ∃ now, now = m.pushRoots (objectNodes (callee :: args)) := ⟨_, rfl⟩
    have same : now.depth = m.depth := start ▸ rfl
    have moments := history_call due held args found start (fuel + 1)
    have looked := looksUp_preparing held args found same
    rcases m.heap.prepare_cases callee args with ⟨⟨f, function⟩, prepares⟩ | ⟨other, unprepared⟩
    · -- a function whose arguments fit, or do not
      cases prepared : m.heap.prepare callee args with
      | error e =>
        simp only [prepared] at moments
        exact ⟨_, _, [], moments, looked, args, prepared⟩
      | ok fitting =>
        obtain ⟨call, rfl⟩ := Option.ne_none_iff_exists'.mp fun none => prepares (none ▸ prepared)
        obtain ⟨settled, later, invoked, settles⟩ := history_invoke (m := now) due held call fuel
        simp only [prepared, invoked] at moments
        refine ⟨_, settled, later, moments, looked, ?_⟩
        subst start
        rcases settles with rfl | ⟨rfl, limit, limited, deep⟩
        · exact ⟨same, f, function⟩
        · exact ⟨same, ⟨f, function⟩, limit, limited, deep⟩
    · -- nothing to call it through
      have missing := (Heap.delegate?_eq found other).symm.trans last
      simp only [unprepared, missing] at moments
      refine ⟨preparing callee held args now ++
          [delegating callee held now, .acts (.ask fun h => h.typeName callee) held now],
        .acts (.raise (.notCallable (m.heap.typeName callee)) : Op Ref) held now, [], ?_, ?_, ?_⟩
      · rw [moments, List.append_assoc]
        rfl
      · refine List.forall_mem_append.mpr ⟨looked, ?_⟩
        exact List.forall_mem_cons.mpr ⟨same, List.forall_mem_singleton.mpr same⟩
      · exact ⟨found ▸ Option.some_ne_none o, rfl⟩

/-- After its hops a call is settled, by what they lead to. -/
theorem callSettles_of_resolves (resolves : m.heap.Resolves callee n target) (enough : n + 2 ≤ fuel) :
    CallSettles due held m callee args fuel target := by
  obtain ⟨rest, rfl⟩ := Nat.exists_eq_add_of_le' enough
  induction n generalizing callee args m with
  | zero =>
    obtain ⟨here, last⟩ := resolves
    cases here
    exact callSettles_of_last last rest
  | succ n ih =>
    obtain ⟨after, last⟩ := resolves
    obtain ⟨method, next, later⟩ := Option.bind_eq_some_iff.mp after
    have further : CallSettles due held (m.pushRoots (objectNodes (callee :: args))) method
        (callee :: args) (rest + (n + 2)) target := ih ⟨later, last⟩ (Nat.le_add_left _ _)
    obtain ⟨lookups, looked, moments⟩ := history_hop due held args next (rest + (n + 2))
    obtain ⟨lookups', settled, later, moments', looked', settles⟩ := further
    refine ⟨lookups ++ lookups', settled, later, ?_, ?_, settles⟩
    · rw [List.append_assoc, ← moments', ← moments]
      rfl
    · exact List.forall_mem_append.mpr ⟨looked, looked'⟩

/-- As many hops as there is fuel use it up. -/
theorem callExhausts_of_hops (hops : m.heap.delegateAfter? fuel callee = some target) :
    CallExhausts due held m callee args fuel := by
  induction fuel generalizing callee args m with
  | zero =>
    refine ⟨⟨m, rfl⟩, fun moment mem => .inr ⟨m, ?_⟩⟩
    exact List.mem_singleton.mp mem
  | succ fuel ih =>
    obtain ⟨method, next, rest⟩ := Option.bind_eq_some_iff.mp hops
    have further : CallExhausts due held (m.pushRoots (objectNodes (callee :: args))) method
        (callee :: args) fuel := ih rest
    obtain ⟨⟨m', ran⟩, quiet⟩ := further
    obtain ⟨lookups, looked, moments⟩ := history_hop due held args next fuel
    refine ⟨⟨m'.truncateRoots m.roots.size, ?_⟩, ?_⟩
    · rw [runUnder_hop due args next, ran]
      rfl
    · rw [moments]
      exact List.forall_mem_append.mpr ⟨fun l mem => .inl (looked l mem), quiet⟩

theorem callExhausts_of_circles (circles : m.heap.Circles callee) (fuel : Nat) :
    CallExhausts due held m callee args fuel := by
  have endless (n : Nat) (_ : n < fuel) (target : Ref) : ¬ m.heap.Resolves callee n target :=
    fun resolves => resolves.not_circles circles
  obtain ⟨r, hops⟩ := Heap.exists_delegateAfter? endless
  exact callExhausts_of_hops hops

/-- A call is settled exactly if its hops do not run in a circle. Then there are at most as many of them
as there are objects, each one takes fuel, and none of them counts as a nested call: the function that they
lead to is the first to enter a frame, one call below the caller. In a circle a call uses up all fuel that
there is, and is neither refused nor counted. -/
theorem call_settles_iff (due : Schedule) (held : List Node) (m : Machine) (callee : Ref)
    (args : List Ref) :
    ((∃ fuel target, CallSettles due held m callee args fuel target) ↔ ¬ m.heap.Circles callee) ∧
    (¬ m.heap.Circles callee →
      ∃ n ≤ m.heap.objects.live, ∃ target, m.heap.Resolves callee n target ∧
        (∀ fuel ≤ n, CallExhausts due held m callee args fuel) ∧
        ∀ fuel, n + 2 ≤ fuel → CallSettles due held m callee args fuel target) ∧
    (m.heap.Circles callee → ∀ fuel, CallExhausts due held m callee args fuel) := by
  have straight (straight : ¬ m.heap.Circles callee) :
      ∃ n ≤ m.heap.objects.live, ∃ target, m.heap.Resolves callee n target ∧
        (∀ fuel ≤ n, CallExhausts due held m callee args fuel) ∧
        ∀ fuel, n + 2 ≤ fuel → CallSettles due held m callee args fuel target := by
    obtain ⟨n, le, target, resolves⟩ := Heap.exists_resolves straight
    refine ⟨n, le, target, resolves, fun fuel few => ?_, fun fuel => callSettles_of_resolves resolves⟩
    -- the hops that come before the last are there
    obtain ⟨more, rfl⟩ := Nat.exists_eq_add_of_le few
    have hops := resolves.1
    rw [Heap.delegateAfter?_add] at hops
    obtain ⟨r, first, -⟩ := Option.bind_eq_some_iff.mp hops
    exact callExhausts_of_hops first
  refine ⟨⟨?_, fun open_ => ?_⟩, straight, callExhausts_of_circles⟩
  · rintro ⟨fuel, target, settles⟩ circles
    exact (callExhausts_of_circles circles fuel).not_settles settles
  · obtain ⟨n, -, target, -, -, settles⟩ := straight open_
    exact ⟨n + 2, target, settles (n + 2) (Nat.le_refl _)⟩

/-- A Type is called through the native function that all Types have for it: one hop. -/
theorem call_list_settles :
    let m := Machine.boot .unlimited .silent
    ∃ target, m.heap.Resolves Kind.list.ref 1 target ∧ ¬ m.heap.Circles Kind.list.ref ∧
      ∃ fuel target, CallSettles Heap.collectionDue [] m Kind.list.ref [] fuel target := by
  intro m
  have hop : (m.heap.delegateAfter? 1 Kind.list.ref).map (fun r => m.heap.delegate? r == none) =
      some true := by
    decide +kernel
  obtain ⟨target, found, last⟩ := Option.map_eq_some_iff.mp hop
  have resolves : m.heap.Resolves Kind.list.ref 1 target := ⟨found, eq_of_beq last⟩
  obtain ⟨settles, -, -⟩ := call_settles_iff Heap.collectionDue [] m Kind.list.ref []
  exact ⟨target, resolves, resolves.not_circles, settles.mpr resolves.not_circles⟩

/-- A program with an instance of a Type through which the instances of that Type are called. -/
def callsItself : Code := assemble
  [.typeDef "A" 0 [], .define "A", .get "A", .op (.call 0), .define "a",
    .get "A", .get "a", .op (.setMember "op_call")]

/-- Under a limit of four nested calls, a call of the instance goes on for ever and is not refused. -/
theorem callsItself_unsettled :
    let limits := { Limits.standard with maxRecursionDepth := some 4 }
    let start := Machine.boot (.ofLimits limits) .silent
    let m := start.afterSession [.request .discarding (.run callsItself)]
    m.heap.depthLimit = some 4 ∧ ∃ a, m.getGlobal? "a" = some a ∧
      ∀ fuel, CallExhausts Heap.collectionDue [] m a [] fuel ∧
        ∀ target, ¬ CallSettles Heap.collectionDue [] m a [] fuel target := by
  intro limits start m
  have limited : m.heap.depthLimit = some 4 := by decide +kernel
  have back : (m.getGlobal? "a").map (fun a => m.heap.delegate? a == some a) = some true := by
    decide +kernel
  obtain ⟨a, named, next⟩ := Option.map_eq_some_iff.mp back
  have circles : m.heap.Circles a := by
    refine ⟨0, 1, a, Nat.zero_lt_one, rfl, ?_⟩
    rw [Heap.delegateAfter?, eq_of_beq next, Option.bind_some, Heap.delegateAfter?]
  refine ⟨limited, a, named, fun fuel => ?_⟩
  have exhausts : CallExhausts Heap.collectionDue [] m a [] fuel := callExhausts_of_circles circles fuel
  exact ⟨exhausts, fun target => exhausts.not_settles⟩

end Engine

end ObjectMachine
