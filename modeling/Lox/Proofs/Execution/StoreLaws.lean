import Lox.Execution.Store

/-!
# What each operation does to each scope

A store is what its scopes hold and what encloses them. Each operation is described by these two
for every scope, so that nothing later depends on how scopes are kept.
-/

namespace Lox.Store

variable {store : Store} {id other : ScopeId} {name : Text} {cell : Cell} {bindings : Bindings}
  {outer : Option ScopeId} {count : Nat}

/-- A new scope is one more. -/
@[simp]
theorem size_push : (store.push outer bindings).size = store.size + 1 :=
  Array.size_push _

/-- The oldest scopes are at most as many as there are. -/
@[simp]
theorem size_truncate : (store.truncate count).size = min count store.size :=
  Array.size_shrink

/-- A change to bindings is no new scope. -/
@[simp]
theorem size_modify (change : Bindings → Bindings) : (store.modify id change).size = store.size :=
  Array.size_modify

/-- A scope is there when its number is below the number of scopes. -/
theorem scopes_eq_none (absent : store.size ≤ id) : store.scopes[id]? = none :=
  Array.getElem?_eq_none absent

/-- Scopes of a store with one more. -/
theorem scopes_push :
    (store.push outer bindings).scopes[id]? =
      if id = store.size then some ⟨outer, bindings⟩ else store.scopes[id]? :=
  Array.getElem?_push

/-- Scopes of a store with the oldest ones only. -/
theorem scopes_truncate :
    (store.truncate count).scopes[id]? = if id < count then store.scopes[id]? else none := by
  unfold truncate
  rw [← Array.getElem?_toList, Array.toList_shrink, List.getElem?_take, Array.getElem?_toList]

/-- Scopes of a store with the bindings of one of them changed. -/
theorem scopes_modify (change : Bindings → Bindings) :
    (store.modify id change).scopes[other]? =
      if id = other then
        store.scopes[other]?.map fun scope => { scope with bindings := change scope.bindings }
      else store.scopes[other]? :=
  Array.getElem?_modify

/-- A scope that is not there binds nothing. -/
theorem bindings_of_size_le (absent : store.size ≤ id) : store.bindings id = [] := by
  rw [Store.bindings, scopes_eq_none absent]
  rfl

/-- A scope that is not there has no enclosing one. -/
theorem enclosing?_of_size_le (absent : store.size ≤ id) : store.enclosing? id = none := by
  rw [enclosing?, scopes_eq_none absent]
  rfl

/-- The new scope has its bindings, and the others have what they had. -/
theorem bindings_push :
    (store.push outer bindings).bindings id =
      if id = store.size then bindings else store.bindings id := by
  unfold Store.bindings
  rw [scopes_push]
  split <;> rfl

/-- The new scope has its enclosing one, and the others have theirs. -/
theorem enclosing?_push :
    (store.push outer bindings).enclosing? id =
      if id = store.size then outer else store.enclosing? id := by
  unfold enclosing?
  rw [scopes_push]
  split <;> rfl

/-- The oldest scopes keep their bindings. -/
theorem bindings_truncate :
    (store.truncate count).bindings id = if id < count then store.bindings id else [] := by
  unfold Store.bindings
  rw [scopes_truncate]
  split <;> rfl

/-- The oldest scopes keep their enclosing ones. -/
theorem enclosing?_truncate :
    (store.truncate count).enclosing? id = if id < count then store.enclosing? id else none := by
  unfold enclosing?
  rw [scopes_truncate]
  split <;> rfl

/-- A change to the bindings of a scope that is there changes those and no others. -/
theorem bindings_modify (change : Bindings → Bindings) :
    (store.modify id change).bindings other =
      if id = other ∧ id < store.size then change (store.bindings other)
      else store.bindings other := by
  unfold Store.bindings
  rw [scopes_modify]
  by_cases same : id = other
  · subst same
    by_cases isThere : id < store.size
    · obtain ⟨scope, found⟩ : ∃ scope, store.scopes[id]? = some scope :=
        ⟨store.scopes[id], Array.getElem?_eq_getElem isThere⟩
      rw [if_pos rfl, if_pos ⟨rfl, isThere⟩, found]
      rfl
    · rw [if_pos rfl, if_neg fun both => isThere both.2, scopes_eq_none (Nat.le_of_not_lt isThere)]
      rfl
  · rw [if_neg same, if_neg fun both => same both.1]

/-- A change to bindings changes no enclosing scope. -/
@[simp]
theorem enclosing?_modify (change : Bindings → Bindings) :
    (store.modify id change).enclosing? other = store.enclosing? other := by
  unfold enclosing?
  rw [scopes_modify]
  split
  · cases store.scopes[other]? <;> rfl
  · rfl

/-- A scope that is enclosed is there. -/
theorem lt_size_of_enclosing? {outer : ScopeId} (isEnclosed : store.enclosing? id = some outer) :
    id < store.size := by
  apply Nat.lt_of_not_le
  intro absent
  rw [enclosing?_of_size_le absent] at isEnclosed
  cases isEnclosed

/-- A cell that is looked up is bound where the name is resolved to. -/
theorem get?_eq_some_iff :
    store.get? id name = some cell ↔
      ∃ scope, store.resolve id name = some scope ∧ (store.bindings scope).get? name = some cell := by
  unfold get?
  exact Option.bind_eq_some_iff

/-- An assignment defines the name where it is resolved to. -/
theorem assign?_eq_some_iff {after : Store} :
    store.assign? id name cell = some after ↔
      ∃ scope, store.resolve id name = some scope ∧ store.define scope name cell = after := by
  unfold assign?
  apply Option.bind_eq_some_iff.trans
  simp only [Option.some.injEq]

/-- A definition binds a name anew in one scope, if that is there. -/
theorem bindings_define :
    (store.define id name cell).bindings other =
      if id = other ∧ id < store.size then (store.bindings other).put name cell
      else store.bindings other :=
  bindings_modify _

/-- A definition changes no enclosing scope. -/
theorem enclosing?_define : (store.define id name cell).enclosing? other = store.enclosing? other :=
  enclosing?_modify _

/-- A store is what its scopes hold and what encloses them. -/
theorem ext_scopes {store' : Store} (size : store.size = store'.size)
    (bindings : ∀ id, store.bindings id = store'.bindings id)
    (enclosing : ∀ id, store.enclosing? id = store'.enclosing? id) : store = store' := by
  obtain ⟨scopes⟩ := store
  obtain ⟨scopes'⟩ := store'
  refine congrArg Store.mk (Array.ext size fun id isThere isThere' => ?_)
  have sameBindings := bindings id
  have sameEnclosing := enclosing id
  unfold Store.bindings at sameBindings
  unfold enclosing? at sameEnclosing
  rw [Array.getElem?_eq_getElem isThere, Array.getElem?_eq_getElem isThere'] at sameBindings
  rw [Array.getElem?_eq_getElem isThere, Array.getElem?_eq_getElem isThere'] at sameEnclosing
  have same : scopes[id].bindings = scopes'[id].bindings := sameBindings
  have same' : scopes[id].enclosing = scopes'[id].enclosing := sameEnclosing
  cases isScope : scopes[id]
  cases isScope' : scopes'[id]
  rw [isScope, isScope'] at same same'
  exact congr (congrArg Scope.mk same') same

/-- Every scope is newer than the one that encloses it. -/
def Ordered (store : Store) : Prop :=
  ∀ scope outer, store.enclosing? scope = some outer → outer < scope

/-- A scope that is there may enclose a new one. -/
theorem Ordered.push (ordered : store.Ordered) {enclosing : ScopeId} (isThere : enclosing < store.size) :
    (store.push (some enclosing) bindings).Ordered := by
  intro scope outer isEnclosed
  rw [enclosing?_push] at isEnclosed
  split at isEnclosed
  · next isNew =>
    obtain rfl := Option.some.inj isEnclosed
    exact Nat.lt_of_lt_of_eq isThere isNew.symm
  · exact ordered scope outer isEnclosed

/-- The oldest scopes are in order. -/
theorem Ordered.truncate (ordered : store.Ordered) : (store.truncate count).Ordered := by
  intro scope outer isEnclosed
  rw [enclosing?_truncate] at isEnclosed
  split at isEnclosed
  · exact ordered scope outer isEnclosed
  · cases isEnclosed

/-- A change to bindings keeps scopes in order. -/
theorem Ordered.modify (ordered : store.Ordered) (change : Bindings → Bindings) :
    (store.modify id change).Ordered := by
  intro scope outer isEnclosed
  rw [enclosing?_modify] at isEnclosed
  exact ordered scope outer isEnclosed

/-- Steps that are not needed to get to the outermost scope do not matter. -/
theorem chainFor_eq (ordered : store.Ordered) {steps steps' : Nat} (enough : id < steps)
    (enough' : id < steps') : store.chainFor steps id = store.chainFor steps' id := by
  induction steps generalizing steps' id with
  | zero => exact absurd enough (Nat.not_lt_zero _)
  | succ steps ih =>
    obtain ⟨steps', rfl⟩ := Nat.exists_eq_succ_of_ne_zero (Nat.ne_zero_of_lt enough')
    rw [chainFor, chainFor]
    cases isEnclosed : store.enclosing? id with
    | none => rfl
    | some outer =>
      have older := ordered id outer isEnclosed
      exact congrArg (id :: ·) (ih (Nat.lt_of_lt_of_le older (Nat.le_of_lt_succ enough))
        (Nat.lt_of_lt_of_le older (Nat.le_of_lt_succ enough')))

/-- A name is resolved to the scope where it is looked up, or from the enclosing one. -/
theorem resolve_eq (ordered : store.Ordered) (id : ScopeId) (name : Text) :
    store.resolve id name =
      if (store.bindings id).binds name then some id
      else (store.enclosing? id).bind fun outer => store.resolve outer name := by
  unfold resolve chain
  rw [chainFor]
  cases isEnclosed : store.enclosing? id with
  | none =>
    rw [List.find?_cons]
    cases (store.bindings id).binds name <;> rfl
  | some outer =>
    have older := ordered id outer isEnclosed
    dsimp only
    rw [List.find?_cons, chainFor_eq ordered older (Nat.lt_succ_self outer)]
    cases (store.bindings id).binds name <;> rfl

end Lox.Store
