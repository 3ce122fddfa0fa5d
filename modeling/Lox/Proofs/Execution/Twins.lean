import Lox.Proofs.Execution.Frame

/-!
# Twin runs

Two runs are twins when they began in states with the same global scope and have done the same
since. The scopes that they have opened stand in the same places behind the ones that were there,
and the cells that they have made are numbered alike from where each of them started. Of the scopes
that were there they may use the global one only; the others are hidden from both.

Names are resolved alike in scopes that stand for each other, so twins stay twins.
-/

namespace Lox

/-- Numbers below two starts are the same, and those from there on are as far behind them. -/
def SameNumber (start start' number number' : Nat) : Prop :=
  (number = number' ∧ number < start ∧ number < start') ∨
    ∃ distance, number = start + distance ∧ number' = start' + distance

/-- The global scope stands for itself, and the scopes behind two others for those as far behind. -/
def SameScope (start start' scope scope' : Nat) : Prop :=
  (scope = 0 ∧ scope' = 0) ∨
    ∃ distance, scope = start + distance ∧ scope' = start' + distance

/-- Cells with the same value and the same number, counted from two starts. -/
structure SameCell (start start' : Nat) (cell cell' : Cell) : Prop where
  value : cell.value = cell'.value
  number : SameNumber start start' cell.id cell'.id

/-- Numbers that stand for each other do so one to one. -/
theorem SameNumber.eq_iff {start start' number number' other other' : Nat}
    (same : SameNumber start start' number number') (same' : SameNumber start start' other other') :
    number = other ↔ number' = other' := by
  obtain ⟨rfl, less, less'⟩ | ⟨distance, rfl, rfl⟩ := same <;>
    obtain ⟨rfl, _, _⟩ | ⟨distance', rfl, rfl⟩ := same' <;> omega

/-- The global scope stands for itself. -/
theorem sameScope_globals (start start' : Nat) : SameScope start start' globals globals :=
  .inl ⟨rfl, rfl⟩

/-- Scopes stand for each other. -/
theorem SameScope.symm {start start' scope scope' : Nat}
    (same : SameScope start start' scope scope') : SameScope start' start scope' scope := by
  obtain ⟨isGlobal, isGlobal'⟩ | ⟨distance, isBehind, isBehind'⟩ := same
  · exact .inl ⟨isGlobal', isGlobal⟩
  · exact .inr ⟨distance, isBehind', isBehind⟩

/-- Scopes that stand for each other do so one to one. -/
theorem SameScope.eq_iff {start start' scope scope' other other' : Nat}
    (positive : 0 < start) (positive' : 0 < start') (same : SameScope start start' scope scope')
    (same' : SameScope start start' other other') : scope = other ↔ scope' = other' := by
  obtain ⟨rfl, rfl⟩ | ⟨distance, rfl, rfl⟩ := same <;>
    obtain ⟨rfl, rfl⟩ | ⟨distance', rfl, rfl⟩ := same' <;> omega

/-- A scope among the first ones stands for one among the first ones. -/
theorem SameScope.lt_iff {start start' distance scope scope' : Nat}
    (positive : 0 < start) (positive' : 0 < start') (same : SameScope start start' scope scope') :
    scope < start + distance ↔ scope' < start' + distance := by
  obtain ⟨rfl, rfl⟩ | ⟨behind, rfl, rfl⟩ := same <;> omega

/-- The scope behind the first ones stands for the one behind the first ones. -/
theorem SameScope.eq_add_iff {start start' distance scope scope' : Nat}
    (positive : 0 < start) (positive' : 0 < start') (same : SameScope start start' scope scope') :
    scope = start + distance ↔ scope' = start' + distance := by
  obtain ⟨rfl, rfl⟩ | ⟨behind, rfl, rfl⟩ := same <;> omega

/-- A scope that stands for another is the global one or is behind the first ones. -/
theorem SameScope.isSeen {start start' scope scope' : Nat}
    (same : SameScope start start' scope scope') : scope = 0 ∨ start ≤ scope := by
  obtain ⟨rfl, rfl⟩ | ⟨distance, rfl, rfl⟩ := same
  · exact .inl rfl
  · exact .inr (Nat.le_add_right _ _)

namespace State

/-- No scope that was there before is changed, apart from the global one. -/
def OthersKept (before after : State) : Prop :=
  ∀ scope : Nat, scope ≠ globals → scope < before.store.size →
    after.store.scopes[scope]? = before.store.scopes[scope]?

/-- Two scopes that bind the same names to cells that stand for each other, and whose enclosing
scopes are older and stand for each other as well. -/
structure ScopesAlike (start start' : State) (scope scope' : ScopeId)
    (outer outer' : Option ScopeId) (bindings bindings' : Bindings) : Prop where
  enclosing : Option.Rel (SameScope start.store.size start'.store.size) outer outer'
  older : ∀ inner ∈ outer, inner < scope
  older' : ∀ inner ∈ outer', inner < scope'
  bound : ∀ name, Option.Rel (SameCell start.nextCell start'.nextCell) (bindings.get? name)
    (bindings'.get? name)

/-- Two runs that began in two states have done the same since. -/
structure Twins (start start' left right : State) : Prop where
  scopes : ∃ opened, left.store.size = start.store.size + opened ∧
    right.store.size = start'.store.size + opened
  cells : ∃ made, left.nextCell = start.nextCell + made ∧ right.nextCell = start'.nextCell + made
  output : ∃ lines, left.output = start.output ++ lines ∧ right.output = start'.output ++ lines
  trace : ∃ lines, left.trace = start.trace ++ lines ∧ right.trace = start'.trace ++ lines
  alike : ∀ scope scope', SameScope start.store.size start'.store.size scope scope' →
    ScopesAlike start start' scope scope' (left.store.enclosing? scope)
      (right.store.enclosing? scope') (left.store.bindings scope) (right.store.bindings scope')
  hidden : start.OthersKept left
  hidden' : start'.OthersKept right

end State

/-- Scopes that are not there are alike. -/
theorem State.scopesAlike_nothing (start start' : State) (scope scope' : ScopeId) :
    ScopesAlike start start' scope scope' none none [] [] where
  enclosing := .none
  older _ isOuter := nomatch isOuter
  older' _ isOuter := nomatch isOuter
  bound _ := .none

/-- Names are bound alike after one more is bound to cells that stand for each other. -/
theorem get?_put_rel {related : Cell → Cell → Prop} {bindings bindings' : Bindings}
    {cell cell' : Cell}
    (bound : ∀ name, Option.Rel related (bindings.get? name) (bindings'.get? name))
    (isRelated : related cell cell') (name other : Text) :
    Option.Rel related ((bindings.put name cell).get? other)
      ((bindings'.put name cell').get? other) := by
  rw [Bindings.get?_put, Bindings.get?_put]
  split
  · exact .some isRelated
  · exact bound other

/-- A change in the global scope or a new one changes no other scope that was there. -/
theorem State.OthersKept.modify {before after : State} {scope : Nat}
    (kept : before.OthersKept after) (isSeen : scope = 0 ∨ before.store.size ≤ scope)
    {change : Bindings → Bindings} :
    before.OthersKept { after with store := after.store.modify scope change } := by
  intro other notGlobal isOld
  have different : scope ≠ other := by
    intro same
    obtain isGlobal | isNew := isSeen
    · exact notGlobal (same.symm.trans isGlobal)
    · exact Nat.not_lt_of_le isNew (Nat.lt_of_le_of_lt (Nat.le_of_eq same) isOld)
  change (after.store.modify scope change).scopes[other]? = _
  rw [Store.scopes_modify, if_neg different]
  exact kept other notGlobal isOld

/-- A new scope changes none that was there. -/
theorem State.OthersKept.enter {before after : State} (kept : before.OthersKept after)
    (more : before.store.size ≤ after.store.size) {enclosing : ScopeId} {bindings : Bindings} :
    before.OthersKept (Exec.enter enclosing bindings after) := by
  intro other notGlobal isOld
  change (after.store.push (some enclosing) bindings).scopes[other]? = _
  rw [Store.scopes_push, if_neg (Nat.ne_of_lt (Nat.lt_of_lt_of_le isOld more))]
  exact kept other notGlobal isOld

/-- Dropping scopes behind those that were there changes none of these. -/
theorem State.OthersKept.leave {before after : State} (kept : before.OthersKept after)
    {scopes : Nat} (more : before.store.size ≤ scopes) {current : ScopeId} :
    before.OthersKept (Exec.leave current scopes after) := by
  intro other notGlobal isOld
  change (after.store.truncate scopes).scopes[other]? = _
  rw [Store.scopes_truncate, if_pos (Nat.lt_of_lt_of_le isOld more)]
  exact kept other notGlobal isOld

/-- What is found first in two lists is alike when their items are, one by one. -/
theorem find?_rel {α β : Type} {related : α → β → Prop} {items : List α} {items' : List β}
    {holds : α → Bool} {holds' : β → Bool} (areRelated : List.Forall₂ related items items')
    (same : ∀ item item', related item item' → holds item = holds' item') :
    Option.Rel related (items.find? holds) (items'.find? holds') := by
  induction areRelated with
  | nil => exact .none
  | @cons item item' _ _ isRelated _ ih =>
    rw [List.find?_cons, List.find?_cons, same item item' isRelated]
    cases holds' item' with
    | false => exact ih
    | true => exact .some isRelated

/-- States with the same global scope are twins of each other, whatever other scopes they have. -/
theorem State.twins_of_agree {start start' : State} (ready : start.Ready) (ready' : start'.Ready)
    (agree : ∀ name, (start.store.bindings globals).get? name =
      (start'.store.bindings globals).get? name) : Twins start start' start start' where
  scopes := ⟨0, rfl, rfl⟩
  cells := ⟨0, rfl, rfl⟩
  output := ⟨#[], Array.append_empty.symm, Array.append_empty.symm⟩
  trace := ⟨#[], Array.append_empty.symm, Array.append_empty.symm⟩
  alike scope scope' same := by
    obtain ⟨rfl, rfl⟩ | ⟨distance, rfl, rfl⟩ := same
    · have outermost : start.store.enclosing? 0 = none := ready.outermost
      have outermost' : start'.store.enclosing? 0 = none := ready'.outermost
      rw [outermost, outermost']
      refine { scopesAlike_nothing start start' 0 0 with bound := fun name => ?_ }
      have sameCells : (start.store.bindings 0).get? name = (start'.store.bindings 0).get? name :=
        agree name
      rw [sameCells]
      cases found : (start'.store.bindings 0).get? name with
      | none => exact .none
      | some cell =>
        exact .some ⟨rfl, .inl ⟨rfl, ready.bound 0 name cell (sameCells.trans found),
          ready'.bound 0 name cell found⟩⟩
    · rw [Store.enclosing?_of_size_le (Nat.le_add_right _ _),
        Store.enclosing?_of_size_le (Nat.le_add_right _ _),
        Store.bindings_of_size_le (Nat.le_add_right _ _),
        Store.bindings_of_size_le (Nat.le_add_right _ _)]
      exact scopesAlike_nothing start start' _ _
  hidden _ _ _ := rfl
  hidden' _ _ _ := rfl

namespace State.Twins

variable {start start' left right : State} {scope scope' : ScopeId}

/-- The scopes from two ones outwards stand for each other. -/
theorem chainFor (twins : Twins start start' left right)
    (same : SameScope start.store.size start'.store.size scope scope') {steps steps' : Nat}
    (enough : scope < steps) (enough' : scope' < steps') :
    List.Forall₂ (SameScope start.store.size start'.store.size)
      (left.store.chainFor steps scope) (right.store.chainFor steps' scope') := by
  induction steps generalizing steps' scope scope' with
  | zero => exact absurd enough (Nat.not_lt_zero _)
  | succ steps ih =>
    obtain ⟨steps', rfl⟩ := Nat.exists_eq_succ_of_ne_zero (Nat.ne_zero_of_lt enough')
    obtain ⟨outside, older, older', -⟩ := twins.alike scope scope' same
    rw [Store.chainFor, Store.chainFor]
    generalize left.store.enclosing? scope = outer at outside older ⊢
    generalize right.store.enclosing? scope' = outer' at outside older' ⊢
    cases outside with
    | none => exact .cons same .nil
    | some sameOuter =>
      have less := older _ rfl
      have less' := older' _ rfl
      exact .cons same (ih sameOuter (Nat.lt_of_lt_of_le less (Nat.le_of_lt_succ enough))
        (Nat.lt_of_lt_of_le less' (Nat.le_of_lt_succ enough')))

/-- Scopes that stand for each other bind the same names. -/
theorem binds (twins : Twins start start' left right)
    (same : SameScope start.store.size start'.store.size scope scope') (name : Text) :
    (left.store.bindings scope).binds name = (right.store.bindings scope').binds name := by
  have bound := (twins.alike scope scope' same).bound name
  unfold Bindings.binds
  generalize (left.store.bindings scope).get? name = found at bound ⊢
  generalize (right.store.bindings scope').get? name = found' at bound ⊢
  cases bound <;> rfl

/-- A name is resolved to scopes that stand for each other. -/
theorem resolve (twins : Twins start start' left right)
    (same : SameScope start.store.size start'.store.size scope scope') (name : Text) :
    Option.Rel (SameScope start.store.size start'.store.size) (left.store.resolve scope name)
      (right.store.resolve scope' name) :=
  find?_rel (twins.chainFor same (Nat.lt_succ_self _) (Nat.lt_succ_self _))
    fun _ _ same' => twins.binds same' name

/-- A name stands for the same cell in scopes that stand for each other. -/
theorem get? (twins : Twins start start' left right)
    (same : SameScope start.store.size start'.store.size scope scope') (name : Text) :
    Option.Rel (SameCell start.nextCell start'.nextCell) (left.store.get? scope name)
      (right.store.get? scope' name) := by
  have found := twins.resolve same name
  unfold Store.get?
  generalize left.store.resolve scope name = inner at found ⊢
  generalize right.store.resolve scope' name = inner' at found ⊢
  cases found with
  | none => exact .none
  | some sameInner => exact (twins.alike _ _ sameInner).bound name

/-- A scope is there in one state when the one that stands for it is there in the other. -/
theorem lt_size_iff (twins : Twins start start' left right) (ready : start.Ready)
    (ready' : start'.Ready)
    (same : SameScope start.store.size start'.store.size scope scope') :
    scope < left.store.size ↔ scope' < right.store.size := by
  obtain ⟨opened, size, size'⟩ := twins.scopes
  rw [size, size']
  exact same.lt_iff ready.hasGlobals ready'.hasGlobals

/-- States stay twins when two scopes that stand for each other are changed alike. -/
theorem modify (twins : Twins start start' left right) (ready : start.Ready) (ready' : start'.Ready)
    (same : SameScope start.store.size start'.store.size scope scope')
    {change change' : Bindings → Bindings}
    (changed : ∀ name, Option.Rel (SameCell start.nextCell start'.nextCell)
      ((change (left.store.bindings scope)).get? name)
      ((change' (right.store.bindings scope')).get? name)) :
    Twins start start' { left with store := left.store.modify scope change }
      { right with store := right.store.modify scope' change' } where
  scopes := by
    obtain ⟨opened, size, size'⟩ := twins.scopes
    exact ⟨opened, (Store.size_modify _).trans size, (Store.size_modify _).trans size'⟩
  cells := twins.cells
  output := twins.output
  trace := twins.trace
  alike other other' sameOther := by
    have isAlike := twins.alike other other' sameOther
    have sameWhere : (scope = other ∧ scope < left.store.size) ↔
        (scope' = other' ∧ scope' < right.store.size) :=
      and_congr (same.eq_iff ready.hasGlobals ready'.hasGlobals sameOther)
        (twins.lt_size_iff ready ready' same)
    rw [Store.enclosing?_modify, Store.enclosing?_modify, Store.bindings_modify,
      Store.bindings_modify]
    by_cases isWhere : scope = other ∧ scope < left.store.size
    · have isWhere' := sameWhere.mp isWhere
      rw [if_pos isWhere, if_pos isWhere', ← isWhere.1, ← isWhere'.1]
      rw [← isWhere.1, ← isWhere'.1] at isAlike
      exact { isAlike with bound := changed }
    · rw [if_neg isWhere, if_neg (mt sameWhere.mpr isWhere)]
      exact isAlike
  hidden := twins.hidden.modify same.isSeen
  hidden' := twins.hidden'.modify same.symm.isSeen

/-- States stay twins when a scope is opened in each. -/
theorem enter (twins : Twins start start' left right) (ready : start.Ready) (ready' : start'.Ready)
    (same : SameScope start.store.size start'.store.size scope scope')
    (isThere : scope < left.store.size) {bindings bindings' : Bindings}
    (bound : ∀ name, Option.Rel (SameCell start.nextCell start'.nextCell) (bindings.get? name)
      (bindings'.get? name)) :
    Twins start start' (Exec.enter scope bindings left) (Exec.enter scope' bindings' right) := by
  have isThere' := (twins.lt_size_iff ready ready' same).mp isThere
  obtain ⟨opened, size, size'⟩ := twins.scopes
  have sameNew {other other' : Nat}
      (sameOther : SameScope start.store.size start'.store.size other other') :
      other = left.store.size ↔ other' = right.store.size := by
    rw [size, size']
    exact sameOther.eq_add_iff ready.hasGlobals ready'.hasGlobals
  refine ⟨⟨opened + 1, ?_, ?_⟩, twins.cells, twins.output, twins.trace, ?_, ?_, ?_⟩
  · exact Store.size_push.trans (congrArg Nat.succ size)
  · exact Store.size_push.trans (congrArg Nat.succ size')
  · intro other other' sameOther
    unfold Exec.enter
    rw [Store.enclosing?_push, Store.enclosing?_push, Store.bindings_push, Store.bindings_push]
    by_cases isNew : other = left.store.size
    · have isNew' := (sameNew sameOther).mp isNew
      rw [if_pos isNew, if_pos isNew', if_pos isNew, if_pos isNew']
      refine ⟨.some same, fun outer isOuter => ?_, fun outer isOuter => ?_, bound⟩
      · obtain rfl := Option.some.inj isOuter
        exact Nat.lt_of_lt_of_le isThere (Nat.le_of_eq isNew.symm)
      · obtain rfl := Option.some.inj isOuter
        exact Nat.lt_of_lt_of_le isThere' (Nat.le_of_eq isNew'.symm)
    · have isOld' := mt (sameNew sameOther).mpr isNew
      rw [if_neg isNew, if_neg isOld', if_neg isNew, if_neg isOld']
      exact twins.alike other other' sameOther
  · exact twins.hidden.enter (size ▸ Nat.le_add_right _ _)
  · exact twins.hidden'.enter (size' ▸ Nat.le_add_right _ _)

/-- States stay twins when the scopes opened since an earlier moment are dropped in each. -/
theorem leave (twins : Twins start start' left right) (ready : start.Ready) (ready' : start'.Ready)
    {opened : Nat} (isOpen : start.store.size + opened ≤ left.store.size)
    (current current' : ScopeId) :
    Twins start start' (Exec.leave current (start.store.size + opened) left)
      (Exec.leave current' (start'.store.size + opened) right) := by
  have isOpen' : start'.store.size + opened ≤ right.store.size := by
    obtain ⟨opened', size, size'⟩ := twins.scopes
    omega
  have sameKept {other other' : Nat}
      (sameOther : SameScope start.store.size start'.store.size other other') :
      other < start.store.size + opened ↔ other' < start'.store.size + opened :=
    sameOther.lt_iff ready.hasGlobals ready'.hasGlobals
  refine ⟨⟨opened, ?_, ?_⟩, twins.cells, twins.output, twins.trace, ?_, ?_, ?_⟩
  · exact Store.size_truncate.trans (Nat.min_eq_left isOpen)
  · exact Store.size_truncate.trans (Nat.min_eq_left isOpen')
  · intro other other' sameOther
    unfold Exec.leave
    rw [Store.enclosing?_truncate, Store.enclosing?_truncate, Store.bindings_truncate,
      Store.bindings_truncate]
    by_cases isKept : other < start.store.size + opened
    · have isKept' := (sameKept sameOther).mp isKept
      rw [if_pos isKept, if_pos isKept', if_pos isKept, if_pos isKept']
      exact twins.alike other other' sameOther
    · have isGone' := mt (sameKept sameOther).mpr isKept
      rw [if_neg isKept, if_neg isGone', if_neg isKept, if_neg isGone']
      exact scopesAlike_nothing start start' other other'
  · exact twins.hidden.leave (Nat.le_add_right _ _)
  · exact twins.hidden'.leave (Nat.le_add_right _ _)

end State.Twins

end Lox
