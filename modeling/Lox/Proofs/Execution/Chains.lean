import Lox.Proofs.Execution.Frame

/-!
# Chains of scopes

From a scope outwards a store is to have a finite chain of scopes that ends in the global one. New
scopes make chains longer, and what runs keep leaves them as they are.

States are compared by their links: which scope encloses which. A moment of a run has all scopes of
its start with the links they had.
-/

namespace Lox

/-- Each scope of a list is enclosed by the next one, and the last is the global one, which nothing
encloses. -/
inductive Store.LeadsOut (store : Store) : List ScopeId → Prop
  | outermost : store.enclosing? globals = none → LeadsOut store [globals]
  | enclosed {scope outer : ScopeId} {further : List ScopeId} :
      store.enclosing? scope = some outer → LeadsOut store (outer :: further) →
      LeadsOut store (scope :: outer :: further)

/-- From a scope outwards, finitely many scopes lead to the global one, and none comes twice. -/
structure Store.Anchored (store : Store) (scope : ScopeId) : Prop where
  hasGlobals : globals < store.size
  chain : ∃ further, store.LeadsOut (scope :: further) ∧ (scope :: further).Nodup

namespace Store

variable {store after : Store} {scope enclosing : ScopeId} {path : List ScopeId}

/-- The scopes of a chain are there. -/
theorem LeadsOut.lt_size (leadsOut : store.LeadsOut path) (hasGlobals : globals < store.size) :
    ∀ scope ∈ path, scope < store.size := by
  induction leadsOut with
  | outermost _ => exact fun scope isGlobal => List.mem_singleton.mp isGlobal ▸ hasGlobals
  | enclosed isEnclosed _ ih => exact List.forall_mem_cons.mpr ⟨lt_size_of_enclosing? isEnclosed, ih⟩

/-- A chain is one in another store if its scopes are enclosed as they were. -/
theorem LeadsOut.of_same (leadsOut : store.LeadsOut path)
    (same : ∀ scope ∈ path, after.enclosing? scope = store.enclosing? scope) :
    after.LeadsOut path := by
  induction leadsOut with
  | outermost isOutermost => exact .outermost ((same _ List.mem_cons_self).trans isOutermost)
  | enclosed isEnclosed _ ih =>
    exact .enclosed ((same _ List.mem_cons_self).trans isEnclosed)
      (ih fun scope isFurther => same scope (List.mem_cons_of_mem _ isFurther))

/-- Nothing encloses the global scope that a chain ends in. -/
theorem LeadsOut.isOutermost (leadsOut : store.LeadsOut path) :
    store.enclosing? globals = none := by
  induction leadsOut with
  | outermost isOutermost => exact isOutermost
  | enclosed _ _ ih => exact ih

namespace Anchored

/-- The global scope is a chain of its own. -/
theorem toGlobals (anchored : store.Anchored scope) : store.Anchored globals where
  hasGlobals := anchored.hasGlobals
  chain := by
    obtain ⟨further, leadsOut, -⟩ := anchored.chain
    exact ⟨[], .outermost leadsOut.isOutermost, by simp⟩

/-- A chain stays one while no scope that is there gets another enclosing one. -/
theorem of_links (anchored : store.Anchored scope) (more : store.size ≤ after.size)
    (links : ∀ other < store.size, after.enclosing? other = store.enclosing? other) :
    after.Anchored scope where
  hasGlobals := Nat.lt_of_lt_of_le anchored.hasGlobals more
  chain := by
    obtain ⟨further, leadsOut, distinct⟩ := anchored.chain
    have areThere := leadsOut.lt_size anchored.hasGlobals
    exact ⟨further, leadsOut.of_same fun other isInside => links other (areThere other isInside),
      distinct⟩

/-- A new scope within a chain makes it longer by one. -/
theorem push (anchored : store.Anchored enclosing) (bindings : Bindings) :
    (store.push (some enclosing) bindings).Anchored store.size where
  hasGlobals := Nat.lt_of_lt_of_eq (Nat.lt_succ_of_lt anchored.hasGlobals) size_push.symm
  chain := by
    obtain ⟨further, leadsOut, distinct⟩ := anchored.chain
    have areThere := leadsOut.lt_size anchored.hasGlobals
    have isEnclosed : (store.push (some enclosing) bindings).enclosing? store.size =
        some enclosing := by
      rw [enclosing?_push, if_pos rfl]
    have leadsOut' : (store.push (some enclosing) bindings).LeadsOut (enclosing :: further) :=
      leadsOut.of_same fun other isInside => by
        rw [enclosing?_push, if_neg (Nat.ne_of_lt (areThere other isInside))]
    have isNew : store.size ∉ enclosing :: further := fun isInside =>
      Nat.lt_irrefl _ (areThere _ isInside)
    exact ⟨enclosing :: further, .enclosed isEnclosed leadsOut',
      List.nodup_cons.mpr ⟨isNew, distinct⟩⟩

end Anchored

end Store

namespace State

/-- From the current scope outwards, finitely many scopes lead to the global one. -/
def Chained (state : State) : Prop :=
  state.store.Anchored state.current

/-- Scopes that are there in both of two states have the same enclosing ones. -/
def LinksKept (before after : State) : Prop :=
  ∀ scope < before.store.size, scope < after.store.size →
    after.store.enclosing? scope = before.store.enclosing? scope

/-- A moment of a run: there is a chain, and all scopes that were there at the start of the run are
there, with the same enclosing ones. -/
structure During (start moment : State) : Prop where
  chained : moment.Chained
  size : start.store.size ≤ moment.store.size
  links : start.LinksKept moment

/-- From one state to another through given ones, with the links kept at every step. -/
inductive Passage : State → List State → State → Prop
  | nil (state : State) : Passage state [] state
  | cons {state next last : State} {passed : List State} :
      state.LinksKept next → Passage next passed last → Passage state (next :: passed) last

variable {start state middle after moment last : State} {passed passed' : List State}

/-- A passage may go on. -/
theorem Passage.append (first : Passage start passed middle) (second : Passage middle passed' last) :
    Passage start (passed ++ passed') last := by
  induction first with
  | nil _ => exact second
  | cons kept _ ih => exact .cons kept (ih second)

/-- What a run keeps includes the links. -/
theorem Kept.linksKept (kept : Kept start after) : start.LinksKept after :=
  fun scope _ _ => kept.enclosing scope

/-- What a run keeps includes the chain. -/
theorem Kept.chained (kept : Kept start after) (chained : start.Chained) : after.Chained := by
  unfold Chained
  rw [kept.current]
  exact chained.of_links (Nat.le_of_eq kept.size.symm) fun other _ => kept.enclosing other

/-- A state that has kept everything is a moment. -/
theorem Kept.during (kept : Kept start after) (chained : start.Chained) : During start after where
  chained := kept.chained chained
  size := Nat.le_of_eq kept.size.symm
  links := kept.linksKept

/-- A moment of what is run later is a moment of the whole. -/
theorem During.earlier (during : During after moment) (before : During start after) :
    During start moment where
  chained := during.chained
  size := Nat.le_trans before.size during.size
  links scope isOld isThere :=
    have isThere' := Nat.lt_of_lt_of_le isOld before.size
    (during.links scope isThere' isThere).trans (before.links scope isOld isThere')

/-- A new scope is entered at a moment. -/
theorem during_enter {enclosing : ScopeId} (anchored : start.store.Anchored enclosing)
    (bindings : Bindings) : During start (Exec.enter enclosing bindings start) where
  chained := anchored.push bindings
  size := Nat.le_trans (Nat.le_succ _) (Nat.le_of_eq Store.size_push.symm)
  links scope isOld _ := by
    change (start.store.push (some enclosing) bindings).enclosing? scope = _
    rw [Store.enclosing?_push, if_neg (Nat.ne_of_lt isOld)]

/-- A scope with a chain is turned to at a moment. -/
theorem during_turn {scope : ScopeId} (anchored : start.store.Anchored scope) :
    During start (Exec.turn scope start) where
  chained := anchored
  size := Nat.le_refl _
  links _ _ _ := rfl

/-- Leaving scopes changes no links. -/
theorem linksKept_leave (state : State) (current : ScopeId) (scopes : Nat) :
    state.LinksKept (Exec.leave current scopes state) := by
  intro scope _ isLeft
  change scope < (state.store.truncate scopes).size at isLeft
  change (state.store.truncate scopes).enclosing? scope = _
  rw [Store.size_truncate] at isLeft
  rw [Store.enclosing?_truncate, if_pos (Nat.lt_of_lt_of_le isLeft (Nat.min_le_left _ _))]

end State

end Lox
