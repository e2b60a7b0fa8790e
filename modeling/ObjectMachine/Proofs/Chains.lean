import Mathlib.Data.List.Perm.Subperm
import ObjectMachine.Proofs.Arenas
import ObjectMachine.Proofs.Garbage
import ObjectMachine.Proofs.Retention
/-!
Chains of scopes. Slots are handed out again, so the order of handles says nothing about which scope is
around which; what a scope has is a chain of live scopes that leads outward to an outermost one. A chain
meets no scope twice, so every search along it ends. A collection keeps the chains of all that it keeps.
-/
namespace ObjectMachine

namespace Heap

variable {h h' : Heap} {s t : ScopeRef} {chain chain' : List ScopeRef}

/-- What is around the scope of a handle; nothing if the slot is vacant. -/
def around? (h : Heap) (s : ScopeRef) : Option (Option ScopeRef) := (h.scope? s).map Scope.outer

/-- The scopes from one outward to the last, which has none around it. -/
inductive Chain (h : Heap) : ScopeRef → List ScopeRef → Prop where
  | outermost {s : ScopeRef} (last : h.around? s = some none) : Chain h s [s]
  | inner {s outer : ScopeRef} {chain : List ScopeRef} (next : h.around? s = some (some outer))
    (rest : Chain h outer chain) : Chain h s (s :: chain)

theorem around?_eq_some_iff {outer : Option ScopeRef} :
    h.around? s = some outer ↔ ∃ scope, h.scope? s = some scope ∧ scope.outer = outer :=
  Option.map_eq_some_iff

namespace Chain

theorem mem_self (c : h.Chain s chain) : s ∈ chain := by
  cases c <;> exact List.mem_cons_self

/-- A chain consists of live scopes. -/
theorem live (c : h.Chain s chain) : ∀ t ∈ chain, (h.scope? t).isSome := by
  have occupied {t : ScopeRef} {outer : Option ScopeRef} (there : h.around? t = some outer) :
      (h.scope? t).isSome := by
    obtain ⟨scope, found, -⟩ := around?_eq_some_iff.mp there
    exact Option.isSome_iff_exists.mpr ⟨scope, found⟩
  induction c with
  | outermost last =>
    intro t mem
    exact List.mem_singleton.mp mem ▸ occupied last
  | inner next rest ih => exact List.forall_mem_cons.mpr ⟨occupied next, ih⟩

theorem unique (c : h.Chain s chain) (c' : h.Chain s chain') : chain = chain' := by
  induction c generalizing chain' with
  | outermost last =>
    cases c' with
    | outermost _ => rfl
    | inner next _ => cases last.symm.trans next
  | inner next rest ih =>
    cases c' with
    | outermost last => cases next.symm.trans last
    | inner next' rest' =>
      cases next.symm.trans next'
      rw [ih rest']

/-- The chain of a scope in a chain is the rest of that chain. -/
theorem suffix (c : h.Chain s chain) (mem : t ∈ chain) : ∃ chain', h.Chain t chain' ∧ chain' <:+ chain := by
  induction c with
  | outermost last =>
    rw [List.mem_singleton.mp mem]
    exact ⟨_, .outermost last, List.suffix_rfl⟩
  | inner next rest ih =>
    rcases List.mem_cons.mp mem with rfl | mem
    · exact ⟨_, .inner next rest, List.suffix_rfl⟩
    · obtain ⟨chain', c', suffix⟩ := ih mem
      exact ⟨chain', c', suffix.trans (List.suffix_cons _ _)⟩

/-- A chain meets no scope twice. -/
theorem nodup (c : h.Chain s chain) : chain.Nodup := by
  induction c with
  | outermost last => exact List.nodup_singleton _
  | inner next rest ih =>
    refine List.nodup_cons.mpr ⟨fun again => ?_, ih⟩
    -- the scope would have a chain that is longer than itself
    obtain ⟨chain', c', suffix⟩ := rest.suffix again
    have length := suffix.length_le
    rw [c'.unique (.inner next rest), List.length_cons] at length
    omega

/-- A chain has no more scopes than there are slots. -/
theorem length_le (c : h.Chain s chain) : chain.length ≤ h.scopes.size := by
  have slots : (chain.map ScopeRef.slot).Nodup :=
    c.nodup.map fun a b same => by cases a; cases b; exact congrArg ScopeRef.mk same
  have bound : chain.map ScopeRef.slot ⊆ List.range h.scopes.size := by
    intro i mem
    obtain ⟨t, inChain, rfl⟩ := List.mem_map.mp mem
    obtain ⟨scope, found⟩ := Option.isSome_iff_exists.mp (c.live t inChain)
    exact List.mem_range.mpr (Arena.lt_size_of_get? found)
  have length := (slots.subperm bound).length_le
  rwa [List.length_map, List.length_range] at length

theorem of_around (c : h.Chain s chain) (same : ∀ t ∈ chain, h'.around? t = h.around? t) :
    h'.Chain s chain := by
  induction c with
  | outermost last => exact .outermost ((same _ List.mem_cons_self).trans last)
  | inner next rest ih =>
    refine .inner ((same _ List.mem_cons_self).trans next) (ih fun t mem => ?_)
    exact same t (List.mem_cons_of_mem _ mem)

end Chain

/-- A live scope that has a chain is another one or is nested in it. -/
def Within (h : Heap) (s base : ScopeRef) : Prop := ∃ chain, h.Chain s chain ∧ base ∈ chain

theorem Within.refl (c : h.Chain s chain) : h.Within s s := ⟨chain, c, c.mem_self⟩

/-! ### Searches -/

/-- A search outward from a scope, of at most `n` rounds: what it finds, if anything; or `none` if it is
not over by then, or strikes a vacant slot. -/
def search {α : Type} (h : Heap) (find? : ScopeRef → Scope → Option α) :
    Nat → Option ScopeRef → Option (Option α)
  | _, none => some none
  | 0, some _ => none
  | n + 1, some s =>
    match h.scope? s with
    | none => none
    | some scope =>
      match find? s scope with
      | some a => some (some a)
      | none => search h find? n scope.outer

/-- Finds a binding of a name in a scope. -/
def findBinding (name : String) (s : ScopeRef) (scope : Scope) : Option (ScopeRef × Ref) :=
  (scope.vars.get? name).map fun value => (s, value)

/-- Finds a given scope. -/
def findScope (base s : ScopeRef) (_ : Scope) : Option Unit := if s = base then some () else none

namespace Chain

/-- The search for a binding is over when the chain is, and the bounded search finds the same. -/
theorem search_binding (c : h.Chain s chain) (name : String) {n : Nat} (enough : chain.length ≤ n) :
    h.search (findBinding name) n (some s) = some (h.bindingWithin? name n s) := by
  induction c generalizing n with
  | outermost last =>
    obtain ⟨n, rfl⟩ : ∃ n', n = n' + 1 := ⟨n - 1, by simp only [List.length_singleton] at enough; omega⟩
    obtain ⟨scope, found, outer⟩ := around?_eq_some_iff.mp last
    simp only [search, bindingWithin?, findBinding, found, outer]
    cases scope.vars.get? name <;> rfl
  | inner next rest ih =>
    obtain ⟨n, rfl⟩ : ∃ n', n = n' + 1 := ⟨n - 1, by simp only [List.length_cons] at enough; omega⟩
    obtain ⟨scope, found, outer⟩ := around?_eq_some_iff.mp next
    have later := ih (Nat.le_of_succ_le_succ enough)
    simp only [search, bindingWithin?, found, outer]
    cases value : scope.vars.get? name with
    | some value => simp only [findBinding, value, Option.map_some]
    | none => simpa only [findBinding, value, Option.map_none] using later

/-- The search for a scope is over when the chain is, and it finds the scopes of the chain. -/
theorem search_scope (c : h.Chain s chain) (base : ScopeRef) {n : Nat} (enough : chain.length ≤ n) :
    h.search (findScope base) n (some s) = some (if h.leadsWithin base n s then some () else none) ∧
      (h.leadsWithin base n s ↔ base ∈ chain) := by
  induction c generalizing n with
  | @outermost s last =>
    obtain ⟨n, rfl⟩ : ∃ n', n = n' + 1 := ⟨n - 1, by simp only [List.length_singleton] at enough; omega⟩
    obtain ⟨scope, found, outer⟩ := around?_eq_some_iff.mp last
    simp only [search, leadsWithin, findScope, found, outer, List.mem_singleton, eq_comm (a := base)]
    by_cases here : s = base <;> simp [here]
  | @inner s outer chain next rest ih =>
    obtain ⟨n, rfl⟩ : ∃ n', n = n' + 1 := ⟨n - 1, by simp only [List.length_cons] at enough; omega⟩
    obtain ⟨scope, found, around⟩ := around?_eq_some_iff.mp next
    obtain ⟨ends, finds⟩ := ih (Nat.le_of_succ_le_succ enough)
    simp only [search, leadsWithin, findScope, found, around, List.mem_cons]
    by_cases here : s = base
    · simp [here]
    · simp only [here, if_false, Ne.symm here, false_or]
      exact ⟨ends, finds⟩

end Chain

/-- The searches for names and scopes end within as many rounds as there are slots, with what the bounded
searches find. -/
theorem searches_end (c : h.Chain s chain) :
    (∀ name, h.search (findBinding name) h.scopes.size (some s) = some (h.binding? s name)) ∧
      ∀ base, h.search (findScope base) h.scopes.size (some s) =
        some (if h.isWithin s base then some () else none) :=
  ⟨fun name => c.search_binding name c.length_le, fun base => (c.search_scope base c.length_le).1⟩

theorem Within.isWithin {base : ScopeRef} (within : h.Within s base) : h.isWithin s base := by
  obtain ⟨chain, c, mem⟩ := within
  exact (c.search_scope base c.length_le).2.mpr mem

end Heap

end ObjectMachine
