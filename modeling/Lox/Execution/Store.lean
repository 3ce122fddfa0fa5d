import Lox.Value.Basic

/-!
# Scopes

A store holds scopes, each of which binds names to cells and may be enclosed by an older scope. A
name is looked up from a scope outwards, and an assignment changes the binding that a look-up
would find. Both go through one function that finds the scope concerned.
-/

namespace Lox

/-- The cells that names are bound to; no name occurs twice. -/
abbrev Bindings := List (Text × Cell)

namespace Bindings

/-- The cell of a name. -/
def get? (bindings : Bindings) (name : Text) : Option Cell :=
  bindings.lookup name

/-- The bindings with a name bound anew, in its old place if it has one. -/
def put (name : Text) (cell : Cell) : Bindings → Bindings
  | [] => [(name, cell)]
  | (other, old) :: rest =>
    if other = name then (name, cell) :: rest else (other, old) :: put name cell rest

/-- Whether a name is bound. -/
def binds (bindings : Bindings) (name : Text) : Bool :=
  (bindings.get? name).isSome

/-- A name that was just bound is bound to the new cell, and the others to what they were. -/
theorem get?_put (bindings : Bindings) (name other : Text) (cell : Cell) :
    get? (bindings.put name cell) other =
      if other = name then some cell else bindings.get? other := by
  have differs {a b : Text} (h : a ≠ b) : (a == b) = false := by simpa using h
  induction bindings with
  | nil =>
    by_cases h : other = name
    · simp [put, get?, h]
    · simp [put, get?, List.lookup_cons, h, differs h]
  | cons binding rest ih =>
    obtain ⟨bound, old⟩ := binding
    unfold get? at ih ⊢
    by_cases same : bound = name
    · subst same
      by_cases h : other = bound
      · simp [put, h]
      · simp [put, List.lookup_cons, h, differs h]
    · by_cases h : other = bound
      · subst h
        simp [put, same]
      · simp [put, List.lookup_cons, same, differs h, ih]

end Bindings

/-- The number of a scope in its store. -/
abbrev ScopeId := Nat

/-- A scope. -/
structure Scope where
  enclosing : Option ScopeId
  bindings : Bindings
  deriving Inhabited, Repr

/-- Scopes in the order in which they were opened. -/
structure Store where
  scopes : Array Scope
  deriving Inhabited, Repr

namespace Store

/-- The store without scopes. -/
def empty : Store := ⟨#[]⟩

/-- The number of scopes, which is the number of the next one. -/
def size (store : Store) : Nat :=
  store.scopes.size

/-- The store with one more scope. -/
def push (store : Store) (enclosing : Option ScopeId) (bindings : Bindings) : Store :=
  ⟨store.scopes.push ⟨enclosing, bindings⟩⟩

/-- The store with its oldest scopes only. -/
def truncate (store : Store) (count : Nat) : Store :=
  ⟨store.scopes.shrink count⟩

/-- The scope that encloses a scope. -/
def enclosing? (store : Store) (id : ScopeId) : Option ScopeId :=
  store.scopes[id]?.bind Scope.enclosing

/-- The bindings of a scope. -/
def bindings (store : Store) (id : ScopeId) : Bindings :=
  (store.scopes[id]?.map Scope.bindings).getD []

/-- The store with the bindings of a scope changed. -/
def modify (store : Store) (id : ScopeId) (change : Bindings → Bindings) : Store :=
  ⟨store.scopes.modify id fun scope => { scope with bindings := change scope.bindings }⟩

/-- The scopes from one outwards, for as many steps as given. -/
def chainFor (store : Store) : (steps : Nat) → ScopeId → List ScopeId
  | 0, _ => []
  | steps + 1, id =>
    match store.enclosing? id with
    | none => [id]
    | some outer => id :: store.chainFor steps outer

/-- The scopes from one outwards. Enclosing scopes are older, so a scope's number bounds the
number of steps. -/
def chain (store : Store) (id : ScopeId) : List ScopeId :=
  store.chainFor (id + 1) id

/-- The innermost scope, from a scope outwards, that binds a name. -/
def resolve (store : Store) (id : ScopeId) (name : Text) : Option ScopeId :=
  (store.chain id).find? fun scope => (store.bindings scope).binds name

/-- Binds a name in a scope, whether or not it is bound there already. -/
def define (store : Store) (id : ScopeId) (name : Text) (cell : Cell) : Store :=
  store.modify id (Bindings.put name cell)

/-- The cell that a name stands for in a scope. -/
def get? (store : Store) (id : ScopeId) (name : Text) : Option Cell := do
  (store.bindings (← store.resolve id name)).get? name

/-- Binds a name anew where it is bound, if it is. -/
def assign? (store : Store) (id : ScopeId) (name : Text) (cell : Cell) : Option Store := do
  some (store.define (← store.resolve id name) name cell)

/-- The bindings of a scope, to go back to later. -/
def snapshot (store : Store) (id : ScopeId) : Bindings :=
  store.bindings id

/-- The store with the bindings of a scope as they were. -/
def restore (store : Store) (id : ScopeId) (saved : Bindings) : Store :=
  store.modify id fun _ => saved

end Store

end Lox
