import Lox.Execution.Exec
import Lox.Proofs.Execution.Names
import Mathlib.Data.Set.Card
import Mathlib.Logic.Relation

/-!
# Names in forests of scopes

Several scopes may have one enclosing scope, so the scopes of a store form a forest. From a scope a
name stands for what it is bound to in the innermost scope on the way outwards that binds it. A look-up
and an assignment both go to that scope, and a change of its binding shows from those scopes
only from which the name leads there.

Any finite forest without cycles is the forest of some store. What can be asked of its scopes leaves
the forest as it is, so the laws hold after any number of requests.
-/

namespace Lox

namespace Store

variable {store after : Store} {id scope outer : ScopeId} {name : Text} {cell : Cell}

/-- A scope is on the chain of another one: it is that scope, or encloses a scope on the chain. -/
def OnChain (store : Store) : ScopeId → ScopeId → Prop :=
  Relation.ReflTransGen fun inner outer => store.enclosing? inner = some outer

/-- A scope is the innermost one on the chain of another that binds a name. -/
structure Innermost (store : Store) (id : ScopeId) (name : Text) (scope : ScopeId) : Prop where
  onChain : store.OnChain id scope
  binds : (store.bindings scope).binds name = true
  first : ∀ between, store.OnChain id between → store.OnChain between scope → between ≠ scope →
    (store.bindings between).binds name = false

/-- No scope on the chain of another is newer than that. -/
theorem Ordered.le_of_onChain (ordered : store.Ordered) (onChain : store.OnChain id scope) :
    scope ≤ id := by
  induction onChain with
  | refl => exact Nat.le_refl _
  | tail _ isEnclosed ih => exact Nat.le_trans (Nat.le_of_lt (ordered _ _ isEnclosed)) ih

/-- A scope that binds a name is the innermost one to do so on its own chain. -/
theorem innermost_of_binds (ordered : store.Ordered)
    (binds : (store.bindings id).binds name = true) :
    store.Innermost id name scope ↔ scope = id := by
  constructor
  · intro innermost
    by_contra isOther
    have unbound := innermost.first id .refl innermost.onChain (Ne.symm isOther)
    rw [binds] at unbound
    cases unbound
  · rintro rfl
    refine ⟨.refl, binds, fun between isInside isOutside isOther => absurd ?_ isOther⟩
    exact Nat.le_antisymm (ordered.le_of_onChain isInside) (ordered.le_of_onChain isOutside)

/-- From a scope that does not bind a name, the chain is followed outwards. -/
theorem innermost_of_not_binds (unbound : (store.bindings id).binds name = false)
    (isEnclosed : store.enclosing? id = some outer) :
    store.Innermost id name scope ↔ store.Innermost outer name scope := by
  have further {other : ScopeId} (onChain : store.OnChain id other) (isOther : other ≠ id) :
      store.OnChain outer other := by
    obtain isSame | ⟨next, isNext, onChain⟩ := Relation.ReflTransGen.cases_head onChain
    · exact absurd isSame.symm isOther
    · obtain rfl : outer = next := Option.some.inj (isEnclosed.symm.trans isNext)
      exact onChain
  constructor
  · intro innermost
    have isOther : scope ≠ id := by
      rintro rfl
      rw [innermost.binds] at unbound
      cases unbound
    exact ⟨further innermost.onChain isOther, innermost.binds,
      fun between isInside => innermost.first between (.head isEnclosed isInside)⟩
  · intro innermost
    refine ⟨.head isEnclosed innermost.onChain, innermost.binds, ?_⟩
    intro between isInside isOutside isOther
    by_cases isStart : between = id
    · rw [isStart, unbound]
    · exact innermost.first between (further isInside isStart) isOutside isOther

/-- A name is resolved to the innermost scope that binds it. -/
theorem resolve_eq_some_iff (ordered : store.Ordered) :
    store.resolve id name = some scope ↔ store.Innermost id name scope := by
  induction id using Nat.strongRecOn with
  | ind id ih =>
    rw [resolve_eq ordered]
    cases binds : (store.bindings id).binds name with
    | true =>
      rw [if_pos rfl, innermost_of_binds ordered binds, Option.some.injEq]
      exact eq_comm
    | false =>
      rw [if_neg Bool.false_ne_true]
      cases isEnclosed : store.enclosing? id with
      | none =>
        refine ⟨fun isResolved => (nomatch isResolved), fun innermost => ?_⟩
        obtain rfl | ⟨next, isNext, -⟩ := Relation.ReflTransGen.cases_head innermost.onChain
        · exact absurd (innermost.binds.symm.trans binds) Bool.noConfusion
        · exact absurd (isEnclosed.symm.trans isNext) (by simp)
      | some outer =>
        rw [innermost_of_not_binds binds isEnclosed]
        exact ih outer (ordered id outer isEnclosed)

/-- There is an innermost scope that binds a name if any scope on the chain does. -/
theorem exists_innermost_iff (ordered : store.Ordered) :
    (∃ scope, store.Innermost id name scope) ↔
      ∃ scope, store.OnChain id scope ∧ (store.bindings scope).binds name = true := by
  constructor
  · rintro ⟨scope, innermost⟩
    exact ⟨scope, innermost.onChain, innermost.binds⟩
  · rintro ⟨scope, onChain, binds⟩
    induction onChain using Relation.ReflTransGen.head_induction_on with
    | refl => exact ⟨scope, (innermost_of_binds ordered binds).mpr rfl⟩
    | @head inner next isEnclosed _ ih =>
      cases bindsInner : (store.bindings inner).binds name with
      | true => exact ⟨inner, (innermost_of_binds ordered bindsInner).mpr rfl⟩
      | false =>
        obtain ⟨found, innermost⟩ := ih
        exact ⟨found, (innermost_of_not_binds bindsInner isEnclosed).mpr innermost⟩

/-- There is one innermost scope at most. -/
theorem Innermost.unique (ordered : store.Ordered) {scope' : ScopeId}
    (innermost : store.Innermost id name scope) (innermost' : store.Innermost id name scope') :
    scope = scope' :=
  Option.some.inj <| ((resolve_eq_some_iff ordered).mpr innermost).symm.trans
    ((resolve_eq_some_iff ordered).mpr innermost')

/-- A look-up gives what the innermost scope binds the name to. -/
theorem get?_eq_some_iff_innermost (ordered : store.Ordered) :
    store.get? id name = some cell ↔
      ∃ scope, store.Innermost id name scope ∧ (store.bindings scope).get? name = some cell := by
  simp only [get?_eq_some_iff, resolve_eq_some_iff ordered]

/-- An assignment binds the name anew in the innermost scope. -/
theorem assign?_eq_some_iff_innermost (ordered : store.Ordered) :
    store.assign? id name cell = some after ↔
      ∃ scope, store.Innermost id name scope ∧ after = store.define scope name cell := by
  simp only [assign?_eq_some_iff, resolve_eq_some_iff ordered, eq_comm (a := after)]

/-- A look-up succeeds if a scope on the chain binds the name. -/
theorem exists_get?_iff (ordered : store.Ordered) :
    (∃ cell, store.get? id name = some cell) ↔
      ∃ scope, store.OnChain id scope ∧ (store.bindings scope).binds name = true := by
  rw [← exists_innermost_iff ordered]
  simp only [get?_eq_some_iff_innermost ordered]
  constructor
  · rintro ⟨-, scope, innermost, -⟩
    exact ⟨scope, innermost⟩
  · rintro ⟨scope, innermost⟩
    obtain ⟨cell, isBound⟩ := Option.isSome_iff_exists.mp innermost.binds
    exact ⟨cell, scope, innermost, isBound⟩

/-- An assignment succeeds if a scope on the chain binds the name. -/
theorem exists_assign?_iff (ordered : store.Ordered) (cell : Cell) :
    (∃ after, store.assign? id name cell = some after) ↔
      ∃ scope, store.OnChain id scope ∧ (store.bindings scope).binds name = true := by
  rw [← exists_innermost_iff ordered]
  simp only [assign?_eq_some_iff_innermost ordered]
  constructor
  · rintro ⟨-, scope, innermost, -⟩
    exact ⟨scope, innermost⟩
  · rintro ⟨scope, innermost⟩
    exact ⟨_, scope, innermost, rfl⟩

/-- In stores with the same links, whose scopes bind a name alike, it leads to the same scopes. -/
theorem innermost_congr (links : ∀ id, after.enclosing? id = store.enclosing? id)
    (names : ∀ id, (after.bindings id).binds name = (store.bindings id).binds name) :
    after.Innermost id name scope ↔ store.Innermost id name scope := by
  have chains (inner outer : ScopeId) : after.OnChain inner outer ↔ store.OnChain inner outer := by
    unfold OnChain
    simp only [links]
  constructor
  · intro innermost
    refine ⟨(chains _ _).mp innermost.onChain, (names _).symm.trans innermost.binds, ?_⟩
    intro between isInside isOutside isOther
    rw [← names]
    exact innermost.first between ((chains _ _).mpr isInside) ((chains _ _).mpr isOutside) isOther
  · intro innermost
    refine ⟨(chains _ _).mpr innermost.onChain, (names _).trans innermost.binds, ?_⟩
    intro between isInside isOutside isOther
    rw [names]
    exact innermost.first between ((chains _ _).mp isInside) ((chains _ _).mp isOutside) isOther

/-- Requests to scopes follow the rules of scopes: a look-up and an assignment agree on the innermost
scope that binds the name, and each request shows from exactly those scopes from which the name now
leads to the binding that it made. -/
structure Laws (store : Store) : Prop where
  /-- A name can be looked up from a scope if one on its chain binds it. -/
  found : ∀ id name, (∃ cell, store.get? id name = some cell) ↔
    ∃ scope, store.OnChain id scope ∧ (store.bindings scope).binds name = true
  /-- A name can be assigned to from a scope if one on its chain binds it. -/
  assigned : ∀ id name cell, (∃ after, store.assign? id name cell = some after) ↔
    ∃ scope, store.OnChain id scope ∧ (store.bindings scope).binds name = true
  /-- What is looked up is bound in the innermost scope. -/
  get : ∀ id name cell, store.get? id name = some cell ↔
    ∃ scope, store.Innermost id name scope ∧ (store.bindings scope).get? name = some cell
  /-- What is assigned to is bound in the innermost scope. -/
  assign : ∀ id name cell after, store.assign? id name cell = some after ↔
    ∃ scope, store.Innermost id name scope ∧ after = store.define scope name cell
  /-- After an assignment the new cell is found from the scopes from which the name leads to the same
  scope, and everything else is found as before. -/
  get_assign : ∀ id name cell after scope, store.assign? id name cell = some after →
    store.Innermost id name scope → ∀ other found,
      (found = name ∧ store.Innermost other name scope → after.get? other found = some cell) ∧
      (¬(found = name ∧ store.Innermost other name scope) →
        after.get? other found = store.get? other found)
  /-- After a definition the new cell is found from the scopes from which the name now leads to the
  scope of the definition, and everything else is found, or not found, as before. -/
  get_define : ∀ id < store.size, ∀ name cell other found,
    (found = name ∧ (store.define id name cell).Innermost other name id →
      (store.define id name cell).get? other found = some cell) ∧
    (¬(found = name ∧ (store.define id name cell).Innermost other name id) →
      (store.define id name cell).get? other found = store.get? other found)
  /-- Where they succeed, a look-up changes nothing, and an assignment the one store only. -/
  succeeds : ∀ (state : State) (name : Token) (cell : Cell), state.store = store →
    (store.get? state.current name.text = some cell →
      Exec.lookup name state = .done cell state) ∧
    ∀ after, store.assign? state.current name.text cell = some after →
      Exec.assign name cell state = .done () { state with store := after }
  /-- Where no scope on the chain binds a name, a look-up and an assignment fail. They report the name
  and the line of the token, and change nothing. -/
  fails : ∀ (state : State) (name : Token) (cell : Cell), state.store = store →
    (¬∃ scope, store.OnChain state.current scope ∧
      (store.bindings scope).binds name.text = true) →
    Exec.lookup name state =
        .failed (.runtime ⟨.undefinedVariable name.text, name.line⟩) state ∧
      Exec.assign name cell state =
        .failed (.runtime ⟨.undefinedVariable name.text, name.line⟩) state

/-- A definition keeps scopes in order. -/
theorem Ordered.define (ordered : store.Ordered) (scope : ScopeId) (name : Text) (cell : Cell) :
    (store.define scope name cell).Ordered :=
  ordered.modify _

/-- What a scope binds a name to, once another name or another scope was changed. -/
theorem get?_bindings_define {other : ScopeId} {found : Text}
    (isOther : ¬(found = name ∧ other = id)) :
    ((store.define id name cell).bindings other).get? found =
      (store.bindings other).get? found := by
  rw [bindings_define]
  split
  · next isChanged =>
    rw [Bindings.get?_put, if_neg fun isName => isOther ⟨isName, isChanged.1.symm⟩]
  · rfl

/-- A binding that was just made is there. -/
theorem get?_bindings_define_self (isThere : id < store.size) :
    ((store.define id name cell).bindings id).get? name = some cell := by
  rw [bindings_define, if_pos ⟨rfl, isThere⟩, Bindings.get?_put, if_pos rfl]

/-- A name leads where it led before a definition, unless it leads to the binding just made. -/
theorem resolve_define (ordered : store.Ordered) (isThere : id < store.size) {found : Text}
    (notMade : ¬(found = name ∧ (store.define id name cell).resolve scope found = some id)) :
    (store.define id name cell).resolve scope found = store.resolve scope found := by
  induction scope using Nat.strongRecOn with
  | ind scope ih =>
    rw [resolve_eq (ordered.define id name cell)] at notMade ⊢
    rw [resolve_eq ordered, enclosing?_define]
    rw [enclosing?_define] at notMade
    have isOther : ¬(found = name ∧ scope = id) := by
      rintro ⟨rfl, rfl⟩
      refine notMade ⟨rfl, if_pos ?_⟩
      rw [Bindings.binds, get?_bindings_define_self isThere]
      rfl
    have unchanged : ((store.define id name cell).bindings scope).binds found =
        (store.bindings scope).binds found := by
      unfold Bindings.binds
      rw [get?_bindings_define isOther]
    rw [unchanged] at notMade ⊢
    cases binds : (store.bindings scope).binds found with
    | true => rfl
    | false =>
      rw [binds, if_neg Bool.false_ne_true] at notMade
      cases isEnclosed : store.enclosing? scope with
      | none => rfl
      | some outer =>
        rw [isEnclosed] at notMade
        exact ih outer (ordered scope outer isEnclosed) notMade

/-- A look-up after a definition finds the binding just made where the name leads to it, and what it
found before everywhere else. -/
theorem get?_define (ordered : store.Ordered) (isThere : id < store.size) (name : Text) (cell : Cell)
    (other : ScopeId) (found : Text) :
    (found = name ∧ (store.define id name cell).Innermost other name id →
      (store.define id name cell).get? other found = some cell) ∧
    (¬(found = name ∧ (store.define id name cell).Innermost other name id) →
      (store.define id name cell).get? other found = store.get? other found) := by
  have ordered' := ordered.define id name cell
  constructor
  · rintro ⟨rfl, innermost⟩
    exact (get?_eq_some_iff_innermost ordered').mpr
      ⟨id, innermost, get?_bindings_define_self isThere⟩
  · intro notMade
    have notResolved :
        ¬(found = name ∧ (store.define id name cell).resolve other found = some id) := by
      rintro ⟨rfl, isResolved⟩
      exact notMade ⟨rfl, (resolve_eq_some_iff ordered').mp isResolved⟩
    have same := resolve_define ordered isThere notResolved
    unfold get?
    rw [same] at notResolved ⊢
    cases isResolved : store.resolve other found with
    | none => rfl
    | some scope =>
      refine get?_bindings_define ?_
      rintro ⟨isName, rfl⟩
      exact notResolved ⟨isName, isResolved⟩

/-- An assignment makes no name lead elsewhere. -/
theorem innermost_define (innermost : store.Innermost id name scope) (cell : Cell)
    {start reached : ScopeId} :
    (store.define scope name cell).Innermost start name reached ↔
      store.Innermost start name reached := by
  refine innermost_congr (fun _ => enclosing?_define) fun other => ?_
  rw [bindings_define]
  split
  · next same =>
    obtain ⟨rfl, -⟩ := same
    rw [Bindings.binds_put, decide_eq_true rfl, Bool.true_or, innermost.binds]
  · rfl

/-- A scope that binds a name is there. -/
theorem Innermost.lt_size (innermost : store.Innermost id name scope) : scope < store.size := by
  by_contra absent
  have unbound := innermost.binds
  rw [bindings_of_size_le (Nat.le_of_not_lt absent)] at unbound
  cases unbound

/-- A look-up fails where no scope on the chain binds the name. -/
theorem get?_eq_none (ordered : store.Ordered)
    (unbound : ¬∃ scope, store.OnChain id scope ∧ (store.bindings scope).binds name = true) :
    store.get? id name = none :=
  Option.eq_none_iff_forall_ne_some.mpr fun cell isFound =>
    unbound ((exists_get?_iff ordered).mp ⟨cell, isFound⟩)

/-- An assignment fails where no scope on the chain binds the name. -/
theorem assign?_eq_none (ordered : store.Ordered)
    (unbound : ¬∃ scope, store.OnChain id scope ∧ (store.bindings scope).binds name = true) :
    store.assign? id name cell = none :=
  Option.eq_none_iff_forall_ne_some.mpr fun after isAssigned =>
    unbound ((exists_assign?_iff ordered cell).mp ⟨after, isAssigned⟩)

/-- The laws hold where every scope is newer than the one that encloses it. -/
theorem Ordered.laws (ordered : store.Ordered) : store.Laws where
  found _ _ := exists_get?_iff ordered
  assigned _ _ cell := exists_assign?_iff ordered cell
  get _ _ _ := get?_eq_some_iff_innermost ordered
  assign _ _ _ _ := assign?_eq_some_iff_innermost ordered
  get_assign id name cell after scope isAssigned innermost other found := by
    obtain ⟨scope', innermost', rfl⟩ := (assign?_eq_some_iff_innermost ordered).mp isAssigned
    obtain rfl := innermost'.unique ordered innermost
    have looked := get?_define ordered innermost'.lt_size name cell other found
    rwa [innermost_define innermost'] at looked
  get_define id isThere name cell := get?_define ordered isThere name cell
  succeeds state name cell isStore := by
    subst isStore
    constructor
    · intro isFound
      rw [Exec.lookup, isFound]
    · intro after isAssigned
      rw [Exec.assign, isAssigned]
  fails state name cell isStore unbound := by
    subst isStore
    constructor
    · rw [Exec.lookup, get?_eq_none ordered unbound]
      rfl
    · rw [Exec.assign, assign?_eq_none ordered unbound]
      rfl

end Store

/-- What can be asked of a scope. -/
inductive ScopeRequest where
  | get (name : Token)
  | assign (name : Token) (cell : Cell)
  | define (name : Text) (cell : Cell)

/-- The step that a request asks for, of the current scope. -/
def ScopeRequest.step : ScopeRequest → Exec Unit
  | get name => do
    let _ ← Exec.lookup name
  | assign name cell => Exec.assign name cell
  | define name cell => Exec.define name cell

/-- A request leaves the scopes there are, and their links, as they are. -/
theorem ScopeRequest.keeps (request : ScopeRequest) : keptUpkeep.Keeps request.step := by
  cases request with
  | get name => exact (Upkeep.keeps_lookup name).bind fun _ => Upkeep.keeps_pure ()
  | assign name cell => exact Upkeep.keeps_assign name cell
  | define name cell => exact keeps_define name cell

namespace State

/-- The state after a request to a scope, whether or not it failed. -/
def asked (state : State) (scope : ScopeId) (request : ScopeRequest) : State :=
  match request.step { state with current := scope } with
  | .done _ after | .failed _ after => after
  | .unfinished => state

/-- The state after requests to scopes, one after another. -/
def askedAll (state : State) (requests : List (ScopeId × ScopeRequest)) : State :=
  requests.foldl (fun state request => state.asked request.1 request.2) state

/-- What a request leaves as it was: the scopes, and which encloses which. -/
theorem links_asked (state : State) (scope : ScopeId) (request : ScopeRequest) :
    (state.asked scope request).store.size = state.store.size ∧
      ∀ other, (state.asked scope request).store.enclosing? other = state.store.enclosing? other := by
  have keeps := request.keeps { state with current := scope } trivial
  unfold asked
  generalize request.step { state with current := scope } = outcome at keeps ⊢
  cases outcome with
  | done _ after | failed _ after =>
    have kept := (keeps after List.mem_cons_self).2
    exact ⟨kept.size, kept.enclosing⟩
  | unfinished => exact ⟨rfl, fun _ => rfl⟩

/-- So do any number of requests. -/
theorem links_askedAll (state : State) (requests : List (ScopeId × ScopeRequest)) :
    (state.askedAll requests).store.size = state.store.size ∧
      ∀ other, (state.askedAll requests).store.enclosing? other = state.store.enclosing? other := by
  induction requests generalizing state with
  | nil => exact ⟨rfl, fun _ => rfl⟩
  | cons request requests ih =>
    obtain ⟨size, enclosing⟩ := state.links_asked request.1 request.2
    obtain ⟨size', enclosing'⟩ := ih (state.asked request.1 request.2)
    exact ⟨size'.trans size, fun other => (enclosing' other).trans (enclosing other)⟩

end State

section Forests

variable {ι : Type} {outer : ι → Option ι}

/-- No scope of a forest encloses itself, directly or not. -/
def Acyclic (outer : ι → Option ι) : Prop :=
  ∀ scope, ¬Relation.TransGen (fun inner enclosing => outer inner = some enclosing) scope scope

/-- The scopes of a finite forest can be put in an order in which each comes behind the one that
encloses it. -/
theorem Acyclic.exists_order [Finite ι] (acyclic : Acyclic outer) :
    ∃ order : List ι, order.Nodup ∧ (∀ scope, scope ∈ order) ∧
      order.Pairwise fun earlier later => outer earlier ≠ some later := by
  classical
  have := Fintype.ofFinite ι
  -- A scope has more scopes around it than the one that encloses it.
  let depth (scope : ι) : Nat :=
    {around | Relation.TransGen (fun inner enclosing => outer inner = some enclosing)
      scope around}.ncard
  have depth_lt {scope enclosing : ι} (isEnclosed : outer scope = some enclosing) :
      depth enclosing < depth scope := by
    refine Set.ncard_lt_ncard (Set.ssubset_iff_of_subset ?_ |>.mpr ?_)
    · exact fun around isAround => .head isEnclosed isAround
    · exact ⟨enclosing, .single isEnclosed, acyclic enclosing⟩
  let order := (Finset.univ : Finset ι).toList.mergeSort fun a b => decide (depth a ≤ depth b)
  have perm : order.Perm Finset.univ.toList := List.mergeSort_perm _ _
  refine ⟨order, perm.nodup_iff.mpr (Finset.nodup_toList _), fun scope => ?_, ?_⟩
  · exact perm.mem_iff.mpr (Finset.mem_toList.mpr (Finset.mem_univ scope))
  · have sorted : order.Pairwise fun a b => decide (depth a ≤ depth b) = true :=
      List.pairwise_mergeSort (fun a b c => by simpa using Nat.le_trans)
        (fun a b => by simpa using Nat.le_total _ _) Finset.univ.toList
    refine sorted.imp fun isSorted isEnclosed => ?_
    exact Nat.not_lt_of_le (of_decide_eq_true isSorted) (depth_lt isEnclosed)

/-- Each finite forest is that of a store, with its scopes numbered from the outermost ones. -/
theorem Acyclic.exists_store [Finite ι] (acyclic : Acyclic outer) (bindings : ι → Bindings) :
    ∃ (store : Store) (number : ι → ScopeId), store.Ordered ∧ number.Injective ∧
      store.size = Nat.card ι ∧
      ∀ scope, number scope < store.size ∧
        store.enclosing? (number scope) = (outer scope).map number ∧
        store.bindings (number scope) = bindings scope := by
  classical
  have := Fintype.ofFinite ι
  obtain ⟨order, nodup, complete, inOrder⟩ := acyclic.exists_order
  let number (scope : ι) : ScopeId := order.idxOf scope
  let store : Store :=
    ⟨(order.map fun scope => ⟨(outer scope).map number, bindings scope⟩).toArray⟩
  have scopes (id : ScopeId) : store.scopes[id]? =
      order[id]?.map fun scope => ⟨(outer scope).map number, bindings scope⟩ := by
    simp [store]
  have numbered (scope : ι) : order[number scope]? = some scope :=
    List.getElem?_idxOf (complete scope)
  have size : store.size = order.length := by simp [store, Store.size]
  refine ⟨store, number, ?_, ?_, ?_, fun scope => ⟨?_, ?_, ?_⟩⟩
  · intro id enclosing isEnclosed
    unfold Store.enclosing? at isEnclosed
    rw [scopes, Option.bind_map] at isEnclosed
    obtain ⟨scope, isScope, isEnclosed⟩ := Option.bind_eq_some_iff.mp isEnclosed
    obtain ⟨around, isAround, rfl⟩ := Option.map_eq_some_iff.mp isEnclosed
    obtain ⟨isThere, rfl⟩ := List.getElem?_eq_some_iff.mp isScope
    obtain ⟨isThere', isAround'⟩ := List.getElem?_eq_some_iff.mp (numbered around)
    obtain isLess | rfl | isMore := Nat.lt_trichotomy (number around) id
    · exact isLess
    · exact absurd (.single (isAround.trans (congrArg some isAround'.symm))) (acyclic _)
    · have isBefore := List.pairwise_iff_getElem.mp inOrder _ _ isThere isThere' isMore
      exact absurd (isAround.trans (congrArg some isAround'.symm)) isBefore
  · intro scope scope' same
    exact (List.idxOf_inj (complete scope)).mp same
  · have all : order.toFinset = Finset.univ :=
      Finset.eq_univ_iff_forall.mpr fun scope => List.mem_toFinset.mpr (complete scope)
    rw [size, Nat.card_eq_fintype_card, ← Finset.card_univ, ← all,
      List.toFinset_card_of_nodup nodup]
  · rw [size]
    exact List.idxOf_lt_length_iff.mpr (complete scope)
  · unfold Store.enclosing?
    rw [scopes, numbered]
    rfl
  · unfold Store.bindings
    rw [scopes, numbered]
    rfl

end Forests

/-- The laws of scopes hold in every finite forest of scopes, after any number of requests to them, of
which none changes the forest. -/
theorem scopes_resolve_names :
    (∀ (ι : Type) [Finite ι] (outer : ι → Option ι) (bindings : ι → Bindings), Acyclic outer →
      ∃ (store : Store) (number : ι → ScopeId), store.Ordered ∧ number.Injective ∧
        store.size = Nat.card ι ∧
        ∀ scope, number scope < store.size ∧
          store.enclosing? (number scope) = (outer scope).map number ∧
          store.bindings (number scope) = bindings scope) ∧
    ∀ state : State, state.store.Ordered → ∀ requests : List (ScopeId × ScopeRequest),
      ((state.askedAll requests).store.size = state.store.size ∧
        ∀ scope, (state.askedAll requests).store.enclosing? scope =
          state.store.enclosing? scope) ∧
      (state.askedAll requests).store.Laws := by
  refine ⟨fun ι _ outer bindings acyclic => acyclic.exists_store bindings, ?_⟩
  intro state ordered requests
  have links := state.links_askedAll requests
  have ordered' : (state.askedAll requests).store.Ordered := by
    intro scope outer isEnclosed
    rw [links.2] at isEnclosed
    exact ordered scope outer isEnclosed
  exact ⟨links, ordered'.laws⟩

/-- Two scopes within the global one, of which the second has a variable of its own under the name of
a global variable. -/
def State.shadowing : State :=
  Exec.enter globals [("x", ⟨4, .bool true⟩)]
    (Exec.enter globals [] { State.blank with store := Store.empty.push none [("x", Cell.nil)] })

/-- An assignment from the first scope changes the global variable, and not what the second scope sees. -/
theorem assignment_misses_shadowed_name :
    let cell : Cell := ⟨5, .text "y"⟩
    ∃ after, State.shadowing.store.assign? 1 "x" cell = some after ∧
      after.get? globals "x" = some cell ∧ after.get? 1 "x" = some cell ∧
      after.get? 2 "x" = some ⟨4, .bool true⟩ := by
  intro cell
  have ordered : State.shadowing.store.Ordered := by
    refine Store.Ordered.push (Store.Ordered.push ?_ (by decide)) (by decide)
    intro scope outer isEnclosed
    rw [Store.enclosing?_push] at isEnclosed
    split at isEnclosed <;> cases isEnclosed
  have laws : State.shadowing.store.Laws := (scopes_resolve_names.2 State.shadowing ordered []).2
  have leads {scope reached : ScopeId}
      (isResolved : State.shadowing.store.resolve scope "x" = some reached) :
      State.shadowing.store.Innermost scope "x" reached :=
    (Store.resolve_eq_some_iff ordered).mp isResolved
  obtain ⟨after, isAssigned⟩ : ∃ after, State.shadowing.store.assign? 1 "x" cell = some after :=
    ⟨_, rfl⟩
  have sees := laws.get_assign 1 "x" cell after globals isAssigned (leads rfl)
  refine ⟨after, isAssigned, (sees globals "x").1 ⟨rfl, leads rfl⟩, (sees 1 "x").1 ⟨rfl, leads rfl⟩, ?_⟩
  have own : State.shadowing.store.Innermost 2 "x" 2 := leads rfl
  refine ((sees 2 "x").2 fun isGlobal => ?_).trans rfl
  exact absurd (isGlobal.2.unique ordered own) (by decide)

end Lox
