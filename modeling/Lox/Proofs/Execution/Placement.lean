import Lox.Execution.Exec
import Lox.Proofs.Execution.StoreLaws
import Mathlib.Order.Monotone.Basic

/-!
# Empty scopes in between

A store may hold the scopes of another one and empty scopes between them. A placement says where the
scopes of the smaller store stand in the larger one; the scopes that are opened later stand behind one
another in both. Names are resolved alike from scopes that lead to each other past empty ones.

Assignments, new scopes and leaving them keep one store padded with respect to the other.
-/

namespace Lox

/-- Where the scopes of a store stand in another one that has scopes besides: the first ones where it says,
in the same order, and those that are opened later one after another. -/
structure Placement where
  place : Nat → Nat
  count : Nat
  increasing : StrictMono place
  further : ∀ scope, count ≤ scope → place (scope + 1) = place scope + 1
  globals : place globals = globals

namespace Placement

/-- A scope that was there from the beginning and has no counterpart. -/
structure Inserted (placement : Placement) (scope : ScopeId) : Prop where
  isOld : scope < placement.place placement.count
  unplaced : ∀ other, placement.place other ≠ scope

/-- The scopes without a counterpart stay as they are. -/
def InsertedKept (placement : Placement) (before after : Store) : Prop :=
  ∀ scope, placement.Inserted scope → after.scopes[scope]? = before.scopes[scope]?

/-- From a scope outwards one comes past empty scopes only to where another scope is placed. -/
inductive LeadsTo (placement : Placement) (store : Store) : ScopeId → ScopeId → Prop
  | here (scope : ScopeId) : LeadsTo placement store (placement.place scope) scope
  | past {inserted outer scope : ScopeId} :
      placement.Inserted inserted → store.bindings inserted = [] →
      store.enclosing? inserted = some outer → LeadsTo placement store outer scope →
      LeadsTo placement store inserted scope

/-- A store holds the scopes of another one where they are placed. -/
structure Padded (placement : Placement) (left right : Store) : Prop where
  more : placement.count ≤ left.size
  size : right.size = placement.place left.size
  ordered : left.Ordered
  ordered' : right.Ordered
  bindings : ∀ scope, right.bindings (placement.place scope) = left.bindings scope
  outermost : ∀ scope, left.enclosing? scope = none →
    right.enclosing? (placement.place scope) = none
  enclosed : ∀ scope outer, left.enclosing? scope = some outer →
    ∃ outer', right.enclosing? (placement.place scope) = some outer' ∧
      placement.LeadsTo right outer' outer

variable {placement : Placement} {left right after before : Store} {scope scope' : ScopeId}

/-- Scopes are placed in their order. -/
@[simp]
theorem place_lt_iff {other : ScopeId} :
    placement.place scope < placement.place other ↔ scope < other :=
  placement.increasing.lt_iff_lt

/-- No two scopes are placed alike. -/
@[simp]
theorem place_eq_iff {other : ScopeId} :
    placement.place scope = placement.place other ↔ scope = other :=
  placement.increasing.injective.eq_iff

/-- Nothing has changed. -/
theorem InsertedKept.refl (store : Store) : placement.InsertedKept store store :=
  fun _ _ => rfl

/-- What stays twice stays. -/
theorem InsertedKept.trans {middle : Store} (first : placement.InsertedKept before middle)
    (second : placement.InsertedKept middle after) : placement.InsertedKept before after :=
  fun scope inserted => (second scope inserted).trans (first scope inserted)

/-- A change where a scope is placed leaves the others as they are. -/
theorem insertedKept_modify (store : Store) (scope : ScopeId) (change : Bindings → Bindings) :
    placement.InsertedKept store (store.modify (placement.place scope) change) := by
  intro other inserted
  rw [Store.scopes_modify, if_neg (inserted.unplaced scope)]

/-- A new scope leaves the old ones as they are. -/
theorem Padded.insertedKept_push (padded : placement.Padded left right) (outer : Option ScopeId)
    (bindings : Bindings) : placement.InsertedKept right (right.push outer bindings) := by
  intro other inserted
  have isOther : other ≠ right.size := fun same =>
    inserted.unplaced left.size (padded.size.symm.trans same.symm)
  rw [Store.scopes_push, if_neg isOther]

/-- Dropping new scopes leaves the old ones as they are. -/
theorem insertedKept_truncate (store : Store) {count : Nat} (more : placement.count ≤ count) :
    placement.InsertedKept store (store.truncate (placement.place count)) := by
  intro other inserted
  have isOld := Nat.lt_of_lt_of_le inserted.isOld (placement.increasing.monotone more)
  rw [Store.scopes_truncate, if_pos isOld]

/-- A way past empty scopes remains one. -/
theorem LeadsTo.of_kept (leads : placement.LeadsTo before scope' scope)
    (kept : placement.InsertedKept before after) : placement.LeadsTo after scope' scope := by
  induction leads with
  | here scope => exact .here scope
  | past inserted isEmpty isEnclosed _ ih =>
    have same := kept _ inserted
    refine .past inserted ?_ ?_ ih
    · rw [← isEmpty, Store.bindings, Store.bindings, same]
    · rw [← isEnclosed, Store.enclosing?, Store.enclosing?, same]

/-- A way past empty scopes begins at a scope that is there if it ends at one. -/
theorem Padded.lt_size (padded : placement.Padded left right)
    (leads : placement.LeadsTo right scope' scope) (isThere : scope < left.size) :
    scope' < right.size := by
  rw [padded.size]
  cases leads with
  | here => exact placement.increasing isThere
  | past inserted _ _ _ =>
    exact Nat.lt_of_lt_of_le inserted.isOld (placement.increasing.monotone padded.more)

/-- A name is resolved to the place of the scope that it is resolved to without empty scopes. -/
theorem Padded.resolve (padded : placement.Padded left right)
    (leads : placement.LeadsTo right scope' scope) (name : Text) :
    right.resolve scope' name = (left.resolve scope name).map placement.place := by
  induction scope using Nat.strongRecOn generalizing scope' with
  | ind scope ih =>
    induction leads with
    | here scope =>
      rw [Store.resolve_eq padded.ordered', Store.resolve_eq padded.ordered, padded.bindings]
      split
      · rfl
      · cases isEnclosed : left.enclosing? scope with
        | none => rw [padded.outermost scope isEnclosed]; rfl
        | some outer =>
          obtain ⟨outer', isEnclosed', leads'⟩ := padded.enclosed scope outer isEnclosed
          rw [isEnclosed']
          exact ih outer (padded.ordered scope outer isEnclosed) leads'
    | past _ isEmpty isEnclosed _ ih' =>
      rw [Store.resolve_eq padded.ordered', isEmpty, isEnclosed]
      exact ih' ih

/-- A name stands for the same cell as without empty scopes. -/
theorem Padded.get? (padded : placement.Padded left right)
    (leads : placement.LeadsTo right scope' scope) (name : Text) :
    right.get? scope' name = left.get? scope name := by
  unfold Store.get?
  rw [padded.resolve leads]
  cases left.resolve scope name with
  | none => rfl
  | some inner => exact congrArg (Bindings.get? · name) (padded.bindings inner)

/-- A change where a scope is placed goes with a change of that scope. -/
theorem Padded.modify (padded : placement.Padded left right) (scope : ScopeId)
    (change : Bindings → Bindings) :
    placement.Padded (left.modify scope change)
      (right.modify (placement.place scope) change) where
  more := Nat.le_trans padded.more (Nat.le_of_eq (Store.size_modify _).symm)
  size := by rw [Store.size_modify, Store.size_modify, padded.size]
  ordered := padded.ordered.modify change
  ordered' := padded.ordered'.modify change
  bindings other := by
    simp only [Store.bindings_modify, padded.bindings, padded.size, place_lt_iff, place_eq_iff]
  outermost other isOutermost := by
    rw [Store.enclosing?_modify] at isOutermost ⊢
    exact padded.outermost other isOutermost
  enclosed other outer isEnclosed := by
    rw [Store.enclosing?_modify] at isEnclosed ⊢
    obtain ⟨outer', isEnclosed', leads⟩ := padded.enclosed other outer isEnclosed
    exact ⟨outer', isEnclosed', leads.of_kept (insertedKept_modify right scope change)⟩

/-- New scopes may be opened where one leads to the other past empty scopes. -/
theorem Padded.push (padded : placement.Padded left right)
    (leads : placement.LeadsTo right scope' scope) (isThere : scope < left.size)
    (bindings : Bindings) :
    placement.Padded (left.push (some scope) bindings) (right.push (some scope') bindings) where
  more := Nat.le_trans padded.more (Nat.le_trans (Nat.le_succ _) (Nat.le_of_eq Store.size_push.symm))
  size := by rw [Store.size_push, Store.size_push, placement.further _ padded.more, padded.size]
  ordered := padded.ordered.push isThere
  ordered' := padded.ordered'.push (padded.lt_size leads isThere)
  bindings other := by
    simp only [Store.bindings_push, padded.bindings, padded.size, place_eq_iff]
  outermost other isOutermost := by
    rw [Store.enclosing?_push] at isOutermost ⊢
    split at isOutermost
    · cases isOutermost
    · next isOld =>
      rw [padded.size, if_neg (mt place_eq_iff.mp isOld)]
      exact padded.outermost other isOutermost
  enclosed other outer isEnclosed := by
    have kept := padded.insertedKept_push (some scope') bindings
    rw [Store.enclosing?_push] at isEnclosed ⊢
    rw [padded.size]
    split at isEnclosed
    · next isNew =>
      obtain rfl := Option.some.inj isEnclosed
      exact ⟨scope', if_pos (congrArg placement.place isNew), leads.of_kept kept⟩
    · next isOld =>
      rw [if_neg (mt place_eq_iff.mp isOld)]
      obtain ⟨outer', isEnclosed', leads'⟩ := padded.enclosed other outer isEnclosed
      exact ⟨outer', isEnclosed', leads'.of_kept kept⟩

/-- Scopes that were opened later may be dropped. -/
theorem Padded.truncate (padded : placement.Padded left right) {count : Nat}
    (more : placement.count ≤ count) (areThere : count ≤ left.size) :
    placement.Padded (left.truncate count) (right.truncate (placement.place count)) where
  more := Nat.le_trans (Nat.le_min.mpr ⟨more, padded.more⟩) (Nat.le_of_eq Store.size_truncate.symm)
  size := by
    rw [Store.size_truncate, Store.size_truncate, padded.size, Nat.min_eq_left areThere,
      Nat.min_eq_left (placement.increasing.monotone areThere)]
  ordered := padded.ordered.truncate
  ordered' := padded.ordered'.truncate
  bindings other := by
    simp only [Store.bindings_truncate, padded.bindings, place_lt_iff]
  outermost other isOutermost := by
    simp only [Store.enclosing?_truncate, place_lt_iff] at isOutermost ⊢
    split at isOutermost
    · next isOld => rw [if_pos isOld, padded.outermost other isOutermost]
    · next isNew => rw [if_neg isNew]
  enclosed other outer isEnclosed := by
    simp only [Store.enclosing?_truncate, place_lt_iff] at isEnclosed ⊢
    split at isEnclosed
    · next isOld =>
      obtain ⟨outer', isEnclosed', leads⟩ := padded.enclosed other outer isEnclosed
      rw [if_pos isOld]
      exact ⟨outer', isEnclosed', leads.of_kept (insertedKept_truncate right more)⟩
    · cases isEnclosed

/-- The placement of some scopes in a store with one scope besides, behind them. -/
def skipping (count : Nat) (positive : 0 < count) : Placement where
  place scope := if scope < count then scope else scope + 1
  count := count
  increasing scope other isBefore := by
    dsimp only
    split <;> split <;> omega
  further scope more := by
    rw [if_neg (Nat.not_lt_of_le more), if_neg (Nat.not_lt_of_le (Nat.le_succ_of_le more))]
  globals := if_pos positive

section Skipping

variable {count : Nat} {positive : 0 < count}

/-- The old scopes stand where they stood. -/
theorem place_skipping_old {scope : Nat} (isOld : scope < count) :
    (skipping count positive).place scope = scope :=
  if_pos isOld

/-- New scopes stand one place further. -/
theorem place_skipping_new {scope : Nat} (isNew : count ≤ scope) :
    (skipping count positive).place scope = scope + 1 :=
  if_neg (Nat.not_lt_of_le isNew)

/-- No scope is placed where the inserted one is, which is not new. -/
theorem inserted_skipping : (skipping count positive).Inserted count where
  isOld := Nat.lt_of_lt_of_eq (Nat.lt_succ_self count) (place_skipping_new (Nat.le_refl count)).symm
  unplaced scope := by
    obtain isOld | isNew := Nat.lt_or_ge scope count
    · rw [place_skipping_old isOld]
      exact Nat.ne_of_lt isOld
    · rw [place_skipping_new isNew]
      exact Nat.ne_of_gt (Nat.lt_succ_of_le isNew)

/-- An old scope is placed only where it is itself, and no other is inserted before the new ones. -/
theorem LeadsTo.eq_of_skipping {store : Store}
    (leads : (skipping count positive).LeadsTo store scope' scope) (isOld : scope' < count)
    (isOld' : scope < count) : scope' = scope := by
  cases leads with
  | here => exact place_skipping_old isOld'
  | past inserted _ _ _ => exact absurd (place_skipping_old isOld) (inserted.unplaced _)

end Skipping

/-- The old scopes are placed where they are. -/
theorem leadsTo_old {count : Nat} {positive : 0 < count} (store : Store) (isOld : scope < count) :
    (skipping count positive).LeadsTo store scope scope := by
  have leads : (skipping count positive).LeadsTo store
      ((skipping count positive).place scope) scope := .here scope
  rwa [place_skipping_old isOld] at leads

/-- A new empty scope leads to the one that encloses it. -/
theorem leadsTo_skipping {store : Store} (isThere : scope < store.size) (positive : 0 < store.size) :
    (skipping store.size positive).LeadsTo (store.push (some scope) []) store.size scope := by
  have isEmpty : (store.push (some scope) []).bindings store.size = [] := by
    rw [Store.bindings_push, if_pos rfl]
  have isEnclosed : (store.push (some scope) []).enclosing? store.size = some scope := by
    rw [Store.enclosing?_push, if_pos rfl]
  exact .past inserted_skipping isEmpty isEnclosed (leadsTo_old _ isThere)

/-- A new empty scope pads a store. -/
theorem padded_skipping {store : Store} (ordered : store.Ordered) (isThere : scope < store.size)
    (positive : 0 < store.size) :
    (skipping store.size positive).Padded store (store.push (some scope) []) where
  more := Nat.le_refl _
  size := by rw [Store.size_push, place_skipping_new (Nat.le_refl _)]
  ordered := ordered
  ordered' := ordered.push isThere
  bindings other := by
    rw [Store.bindings_push, if_neg (inserted_skipping.unplaced other)]
    obtain isOld | isNew := Nat.lt_or_ge other store.size
    · rw [place_skipping_old isOld]
    · rw [place_skipping_new isNew, Store.bindings_of_size_le isNew,
        Store.bindings_of_size_le (Nat.le_succ_of_le isNew)]
  outermost other isOutermost := by
    rw [Store.enclosing?_push, if_neg (inserted_skipping.unplaced other)]
    obtain isOld | isNew := Nat.lt_or_ge other store.size
    · rw [place_skipping_old isOld, isOutermost]
    · rw [place_skipping_new isNew, Store.enclosing?_of_size_le (Nat.le_succ_of_le isNew)]
  enclosed other outer isEnclosed := by
    have isOld := Store.lt_size_of_enclosing? isEnclosed
    have older := ordered other outer isEnclosed
    rw [Store.enclosing?_push, if_neg (inserted_skipping.unplaced other), place_skipping_old isOld]
    exact ⟨outer, isEnclosed, leadsTo_old _ (Nat.lt_trans older isOld)⟩

/-- Without the scope that pads it the store is the other one. -/
theorem Padded.truncate_skipping {count : Nat} {positive : 0 < count}
    (padded : (skipping count positive).Padded left right) (size : left.size = count) :
    right.truncate count = left := by
  have size' : right.size = count + 1 := by
    rw [padded.size, size, place_skipping_new (Nat.le_refl _)]
  apply Store.ext_scopes
  · rw [Store.size_truncate, size', size]
    exact Nat.min_eq_left (Nat.le_succ _)
  · intro other
    rw [Store.bindings_truncate]
    split
    · next isOld =>
      have same := padded.bindings other
      rwa [place_skipping_old isOld] at same
    · next isNew =>
      exact (Store.bindings_of_size_le (size.trans_le (Nat.le_of_not_lt isNew))).symm
  · intro other
    rw [Store.enclosing?_truncate]
    split
    · next isOld =>
      cases isEnclosed : left.enclosing? other with
      | none =>
        have same := padded.outermost other isEnclosed
        rwa [place_skipping_old isOld] at same
      | some outer =>
        obtain ⟨outer', isEnclosed', leads⟩ := padded.enclosed other outer isEnclosed
        rw [place_skipping_old isOld] at isEnclosed'
        have older := Nat.lt_trans (padded.ordered other outer isEnclosed) isOld
        have older' := Nat.lt_trans (padded.ordered' other outer' isEnclosed') isOld
        rw [isEnclosed', leads.eq_of_skipping older' older]
    · next isNew =>
      exact (Store.enclosing?_of_size_le (size.trans_le (Nat.le_of_not_lt isNew))).symm

end Placement

end Lox
