import Lox.Proofs.Execution.Forests

/-!
# Snapshots of scopes

A snapshot is taken of what a scope binds, and restoring it gives the scope these bindings back, whatever
was asked of any scope since. All other scopes keep what they have then, and a snapshot can be restored as
often as one likes.

This needs no care where bindings are values. Where they are maps that are changed in place, taking a
snapshot has to copy the map of the scope, and restoring it has to copy the map of the snapshot. Then no
map is that of two scopes, or of a scope and a snapshot, and what the maps hold is at every moment what the
values would be.
-/

namespace Lox

/-- What can be asked of a scope, snapshots included. A snapshot is known by the number of those that were
taken before it. -/
inductive SnapshotRequest where
  | ask (request : ScopeRequest)
  | take
  | restore (snapshot : Nat)

/-- What a request does to the scopes of a store. -/
def ScopeRequest.change (request : ScopeRequest) (scope : ScopeId) (store : Store) : Store :=
  match request with
  | get _ => store
  | assign name cell => (store.assign? scope name.text cell).getD store
  | define name cell => store.define scope name cell

/-- A state after a request has the store that the request makes of its store. -/
theorem State.store_asked (state : State) (scope : ScopeId) (request : ScopeRequest) :
    (state.asked scope request).store = request.change scope state.store := by
  unfold State.asked ScopeRequest.change
  cases request with
  | get name =>
    have isLookup : (ScopeRequest.get name).step =
        Exec.andThen (Exec.lookup name) fun _ => Exec.result () := rfl
    rw [isLookup]
    unfold Exec.andThen Exec.lookup
    dsimp only
    cases state.store.get? scope name.text <;> rfl
  | assign name cell =>
    unfold ScopeRequest.step Exec.assign
    dsimp only
    cases state.store.assign? scope name.text cell <;> rfl
  | define name cell => rfl

/-- Restoring the same bindings again changes nothing. -/
theorem Store.restore_restore (store : Store) (scope : ScopeId) (saved : Bindings) :
    (store.restore scope saved).restore scope saved = store.restore scope saved := by
  refine ext_scopes (size_modify _) (fun other => ?_) (fun other => enclosing?_modify _)
  unfold restore
  rw [bindings_modify, bindings_modify, size_modify]
  split <;> rfl

/-- A state and the snapshots taken so far, the oldest first. -/
structure SavedState where
  state : State
  taken : List Bindings

namespace SavedState

/-- What is there after a request. Asking for a snapshot that was not taken does nothing. -/
def asked (saved : SavedState) (scope : ScopeId) : SnapshotRequest → SavedState
  | .ask request => { saved with state := saved.state.asked scope request }
  | .take => { saved with taken := saved.taken ++ [saved.state.store.snapshot scope] }
  | .restore snapshot =>
    match saved.taken[snapshot]? with
    | some bindings =>
      { saved with state := { saved.state with store := saved.state.store.restore scope bindings } }
    | none => saved

/-- What is there after requests, one after another. -/
def askedAll (saved : SavedState) (requests : List (ScopeId × SnapshotRequest)) : SavedState :=
  requests.foldl (fun saved request => saved.asked request.1 request.2) saved

/-- Requests keep the number of scopes. -/
theorem size_asked (saved : SavedState) (scope : ScopeId) (request : SnapshotRequest) :
    (saved.asked scope request).state.store.size = saved.state.store.size := by
  cases request with
  | ask request => exact (saved.state.links_asked scope request).1
  | take => rfl
  | restore snapshot =>
    unfold asked
    dsimp only
    cases saved.taken[snapshot]? with
    | none => rfl
    | some bindings => exact Store.size_modify _

/-- A request keeps the snapshots that there are. -/
theorem prefix_taken_asked (saved : SavedState) (scope : ScopeId) (request : SnapshotRequest) :
    saved.taken <+: (saved.asked scope request).taken := by
  cases request with
  | ask request => exact List.prefix_rfl
  | take => exact List.prefix_append _ _
  | restore snapshot =>
    unfold asked
    dsimp only
    cases saved.taken[snapshot]? <;> exact List.prefix_rfl

/-- Any number of requests keep the number of scopes, and the snapshots that there are. -/
theorem keeps_askedAll (saved : SavedState) (requests : List (ScopeId × SnapshotRequest)) :
    (saved.askedAll requests).state.store.size = saved.state.store.size ∧
      saved.taken <+: (saved.askedAll requests).taken := by
  induction requests generalizing saved with
  | nil => exact ⟨rfl, List.prefix_rfl⟩
  | cons request requests ih =>
    obtain ⟨size, taken⟩ := ih (saved.asked request.1 request.2)
    exact ⟨size.trans (saved.size_asked _ _), (saved.prefix_taken_asked _ _).trans taken⟩

/-- A snapshot is among those taken, whatever is asked later. -/
theorem taken_askedAll_take (saved : SavedState) (scope : ScopeId)
    (requests : List (ScopeId × SnapshotRequest)) :
    ((saved.asked scope .take).askedAll requests).taken[saved.taken.length]? =
      some (saved.state.store.bindings scope) := by
  obtain ⟨others, isTaken⟩ := ((saved.asked scope .take).keeps_askedAll requests).2
  change saved.taken ++ [saved.state.store.snapshot scope] ++ others = _ at isTaken
  rw [← isTaken, List.append_assoc, List.getElem?_append_right (Nat.le_refl _), Nat.sub_self]
  rfl

variable {saved : SavedState} {snapshot : Nat} {bindings : Bindings}

/-- Restoring a snapshot changes the one store only. -/
theorem asked_restore (isTaken : saved.taken[snapshot]? = some bindings) (scope : ScopeId) :
    saved.asked scope (.restore snapshot) =
      { saved with
        state := { saved.state with store := saved.state.store.restore scope bindings } } := by
  unfold asked
  dsimp only
  rw [isTaken]

/-- Restoring a snapshot twice in a row is restoring it once. -/
theorem asked_restore_restore (isTaken : saved.taken[snapshot]? = some bindings) (scope : ScopeId) :
    (saved.asked scope (.restore snapshot)).asked scope (.restore snapshot) =
      saved.asked scope (.restore snapshot) := by
  rw [asked_restore isTaken]
  unfold asked
  dsimp only
  rw [isTaken]
  dsimp only
  rw [Store.restore_restore]

/-- After a restore the scope binds what it bound at the snapshot, and the others what they bound just
before. -/
theorem bindings_restored (start : SavedState) (scope : ScopeId)
    (requests : List (ScopeId × SnapshotRequest)) (other : ScopeId) :
    (((start.asked scope .take).askedAll requests).asked scope
        (.restore start.taken.length)).state.store.bindings other =
      if other = scope then start.state.store.bindings scope
      else ((start.asked scope .take).askedAll requests).state.store.bindings other := by
  have size := ((start.asked scope .take).keeps_askedAll requests).1
  rw [asked_restore (start.taken_askedAll_take scope requests)]
  dsimp only
  rw [Store.restore, Store.bindings_modify, size]
  by_cases same : other = scope
  · subst same
    rw [if_pos rfl]
    split
    · rfl
    · next absent =>
      have isAbsent : start.state.store.size ≤ other :=
        Nat.le_of_not_lt fun isThere => absent ⟨rfl, isThere⟩
      rw [Store.bindings_of_size_le isAbsent, Store.bindings_of_size_le (size ▸ isAbsent)]
  · rw [if_neg same, if_neg fun both => same both.1.symm]

end SavedState

/-- A scope whose bindings are the map at an address. -/
structure MappedScope where
  enclosing : Option ScopeId
  address : Nat

/-- Scopes and snapshots whose bindings are maps that are changed in place. A map is known by its address,
and scopes or snapshots with one address share the map. -/
structure MapMemory where
  maps : List Bindings
  scopes : List MappedScope
  taken : List Nat

namespace MapMemory

/-- The memory in which each scope of a store and each of some snapshots has a map of its own. -/
def ofStore (store : Store) (taken : List Bindings) : MapMemory where
  maps := store.scopes.toList.map Scope.bindings ++ taken
  scopes := store.scopes.toList.mapIdx fun address scope => ⟨scope.enclosing, address⟩
  taken := List.range' store.size taken.length

variable (memory : MapMemory)

/-- The map at an address. -/
def map (address : Nat) : Bindings :=
  (memory.maps[address]?).getD []

/-- The store that is seen in the maps. -/
def store : Store :=
  ⟨(memory.scopes.map fun scope => ⟨scope.enclosing, memory.map scope.address⟩).toArray⟩

/-- The snapshots that are seen in the maps. -/
def snapshots : List Bindings :=
  memory.taken.map memory.map

/-- The memory with one more map. -/
def add (added : Bindings) : MapMemory :=
  { memory with maps := memory.maps ++ [added] }

/-- Binds a name in the map of a scope. -/
def define (scope : ScopeId) (name : Text) (cell : Cell) : MapMemory :=
  match memory.scopes[scope]? with
  | some found => { memory with maps := memory.maps.modify found.address (Bindings.put name cell) }
  | none => memory

/-- Binds a name anew in the map in which it is found. -/
def assign (scope : ScopeId) (name : Text) (cell : Cell) : MapMemory :=
  match memory.store.resolve scope name with
  | some found => memory.define found name cell
  | none => memory

/-- Takes a snapshot, which has a copy of the map of the scope. -/
def take (scope : ScopeId) : MapMemory :=
  { memory.add (memory.store.bindings scope) with taken := memory.taken ++ [memory.maps.length] }

/-- Gives a scope a copy of the map of a snapshot. -/
def restore (scope : ScopeId) (snapshot : Nat) : MapMemory :=
  match memory.taken[snapshot]? with
  | some address =>
    { memory.add (memory.map address) with
      scopes := memory.scopes.modify scope ({ · with address := memory.maps.length }) }
  | none => memory

/-- The memory after a request. -/
def asked (scope : ScopeId) : SnapshotRequest → MapMemory
  | .ask (.get _) => memory
  | .ask (.assign name cell) => memory.assign scope name.text cell
  | .ask (.define name cell) => memory.define scope name cell
  | .take => memory.take scope
  | .restore snapshot => memory.restore scope snapshot

/-- The memory after requests, one after another. -/
def askedAll (requests : List (ScopeId × SnapshotRequest)) : MapMemory :=
  requests.foldl (fun memory request => memory.asked request.1 request.2) memory

/-- Each scope and each snapshot has a map, and none shares that of a scope. -/
structure Separate : Prop where
  scope_eq : ∀ {scope other : ScopeId} {found found' : MappedScope},
    memory.scopes[scope]? = some found → memory.scopes[other]? = some found' →
      found'.address = found.address → other = scope
  notMem_taken : ∀ {scope : ScopeId} {found : MappedScope},
    memory.scopes[scope]? = some found → found.address ∉ memory.taken
  hasMap : ∀ {scope : ScopeId} {found : MappedScope},
    memory.scopes[scope]? = some found → found.address < memory.maps.length
  hasMap_of_mem : ∀ {address : Nat}, address ∈ memory.taken → address < memory.maps.length

variable {memory} {scope : ScopeId} {found : MappedScope}

/-- What a scope is seen to bind is its map. -/
theorem bindings_store (id : ScopeId) :
    memory.store.bindings id =
      (memory.scopes[id]?.map fun found => memory.map found.address).getD [] := by
  simp [Store.bindings, store, Function.comp_def]

/-- What encloses a scope is seen as it is. -/
theorem enclosing?_store (id : ScopeId) :
    memory.store.enclosing? id = memory.scopes[id]?.bind MappedScope.enclosing := by
  simp only [Store.enclosing?, store, List.getElem?_toArray, List.getElem?_map, Option.bind_map]
  rfl

/-- All scopes are seen. -/
theorem size_store : memory.store.size = memory.scopes.length := by
  simp [Store.size, store]

/-- A scope that is in the memory is there. -/
theorem lt_size_store (isScope : memory.scopes[scope]? = some found) : scope < memory.store.size := by
  rw [size_store]
  exact (List.getElem?_eq_some_iff.mp isScope).1

/-- The map at an address, once the map at some address is changed. -/
theorem map_modify {address : Nat} (isThere : address < memory.maps.length)
    (change : Bindings → Bindings) (other : Nat) :
    map { memory with maps := memory.maps.modify address change } other =
      if other = address then change (memory.map other) else memory.map other := by
  unfold map
  dsimp only
  rw [List.getElem?_modify]
  by_cases same : other = address
  · subst same
    simp [isThere]
  · simp [same, Ne.symm same]

/-- The maps that there are stay where they are when one is added. -/
theorem map_add_of_lt {address : Nat} (isThere : address < memory.maps.length) (added : Bindings) :
    (memory.add added).map address = memory.map address := by
  unfold map add
  dsimp only
  rw [List.getElem?_append_left isThere]

/-- The map that is added is found at the next address. -/
theorem map_add (added : Bindings) : (memory.add added).map memory.maps.length = added := by
  unfold map add
  dsimp only
  rw [List.getElem?_concat_length]
  rfl

/-- What a scope is seen to bind once the bindings of one scope are changed where it has a map. -/
theorem store_eq_modify {after : MapMemory} {change : Bindings → Bindings}
    (isScope : memory.scopes[scope]? = some found)
    (length : after.scopes.length = memory.scopes.length)
    (mapped : ∀ other found', memory.scopes[other]? = some found' →
      ∃ address, after.scopes[other]? = some ⟨found'.enclosing, address⟩ ∧
        after.map address =
          if scope = other then change (memory.map found'.address) else memory.map found'.address) :
    after.store = memory.store.modify scope change := by
  have absent {other : ScopeId} (isNone : memory.scopes[other]? = none) :
      after.scopes[other]? = none := by
    rw [List.getElem?_eq_none_iff] at isNone ⊢
    rwa [length]
  refine Store.ext_scopes ?_ (fun other => ?_) (fun other => ?_)
  · rw [Store.size_modify, size_store, size_store, length]
  · rw [Store.bindings_modify, bindings_store, bindings_store]
    cases isOther : memory.scopes[other]? with
    | none =>
      rw [absent isOther, if_neg]
      · rfl
      · rintro ⟨rfl, -⟩
        exact absurd (isScope.symm.trans isOther) (by simp)
    | some found' =>
      obtain ⟨address, isAfter, isMap⟩ := mapped other found' isOther
      rw [isAfter]
      change after.map address = _
      rw [isMap]
      exact if_congr ⟨fun same => ⟨same, lt_size_store isScope⟩, And.left⟩ rfl rfl
  · rw [Store.enclosing?_modify, enclosing?_store, enclosing?_store]
    cases isOther : memory.scopes[other]? with
    | none => rw [absent isOther]
    | some found' =>
      obtain ⟨address, isAfter, -⟩ := mapped other found' isOther
      rw [isAfter]
      rfl

/-- What is asked of a scope that is not there changes nothing. -/
theorem modify_store_of_none (isNone : memory.scopes[scope]? = none)
    (change : Bindings → Bindings) : memory.store.modify scope change = memory.store := by
  have absent : memory.store.size ≤ scope := by
    rw [size_store]
    exact List.getElem?_eq_none_iff.mp isNone
  refine Store.ext_scopes (Store.size_modify _) (fun other => ?_)
    (fun other => Store.enclosing?_modify _)
  rw [Store.bindings_modify, if_neg fun both => absurd both.2 (Nat.not_lt_of_le absent)]

section Steps

variable (separate : memory.Separate)

include separate

/-- A definition in the map of a scope is seen in that scope alone. -/
theorem store_define (scope : ScopeId) (name : Text) (cell : Cell) :
    (memory.define scope name cell).store = memory.store.define scope name cell := by
  unfold define
  cases isScope : memory.scopes[scope]? with
  | none => exact (modify_store_of_none isScope _).symm
  | some found =>
    refine store_eq_modify isScope rfl fun other found' isOther => ⟨_, isOther, ?_⟩
    rw [map_modify (separate.hasMap isScope)]
    refine if_congr ⟨fun same => (separate.scope_eq isScope isOther same).symm, ?_⟩ rfl rfl
    rintro rfl
    exact congrArg MappedScope.address (Option.some.inj (isOther.symm.trans isScope))

/-- A definition is seen in no snapshot. -/
theorem snapshots_define (scope : ScopeId) (name : Text) (cell : Cell) :
    (memory.define scope name cell).snapshots = memory.snapshots := by
  unfold define
  cases isScope : memory.scopes[scope]? with
  | none => rfl
  | some found =>
    refine List.map_congr_left fun address isTaken => ?_
    rw [map_modify (separate.hasMap isScope), if_neg]
    rintro rfl
    exact separate.notMem_taken isScope isTaken

/-- A definition moves no map. -/
theorem Separate.define (scope : ScopeId) (name : Text) (cell : Cell) :
    (memory.define scope name cell).Separate := by
  unfold MapMemory.define
  cases memory.scopes[scope]? with
  | none => exact separate
  | some found =>
    refine ⟨separate.scope_eq, separate.notMem_taken, fun isScope => ?_, fun isTaken => ?_⟩
    · exact (separate.hasMap isScope).trans_eq (List.length_modify ..).symm
    · exact (separate.hasMap_of_mem isTaken).trans_eq (List.length_modify ..).symm

/-- A further map is seen in no scope. -/
theorem store_add (added : Bindings) : (memory.add added).store = memory.store := by
  refine congrArg Store.mk (congrArg List.toArray (List.map_congr_left fun found isScope => ?_))
  obtain ⟨index, isScope⟩ := List.getElem?_of_mem isScope
  exact congrArg (Scope.mk found.enclosing) (map_add_of_lt (separate.hasMap isScope) _)

/-- A snapshot is seen in no scope. -/
theorem store_take (scope : ScopeId) : (memory.take scope).store = memory.store :=
  store_add separate _

/-- A snapshot holds what its scope binds, and leaves the others as they are. -/
theorem snapshots_take (scope : ScopeId) :
    (memory.take scope).snapshots = memory.snapshots ++ [memory.store.bindings scope] := by
  change (memory.taken ++ [_]).map (memory.add _).map = _
  rw [List.map_append, List.map_singleton, map_add]
  refine congrArg (· ++ _) (List.map_congr_left fun address isTaken => ?_)
  exact map_add_of_lt (separate.hasMap_of_mem isTaken) _

/-- The map of a new snapshot is that of no scope. -/
theorem Separate.take (scope : ScopeId) : (memory.take scope).Separate := by
  have longer : (memory.take scope).maps.length = memory.maps.length + 1 := List.length_append
  refine ⟨separate.scope_eq, fun isScope => ?_, fun isScope => ?_, fun isTaken => ?_⟩
  · intro isTaken
    obtain isEarlier | isLast := List.mem_append.mp isTaken
    · exact separate.notMem_taken isScope isEarlier
    · exact absurd (List.mem_singleton.mp isLast) (Nat.ne_of_lt (separate.hasMap isScope))
  · rw [longer]
    exact Nat.lt_succ_of_lt (separate.hasMap isScope)
  · rw [longer]
    obtain isEarlier | isLast := List.mem_append.mp isTaken
    · exact Nat.lt_succ_of_lt (separate.hasMap_of_mem isEarlier)
    · rw [List.mem_singleton.mp isLast]
      exact Nat.lt_succ_self _

/-- A restore is seen in its scope alone. -/
theorem store_restore {snapshot address : Nat} (isTaken : memory.taken[snapshot]? = some address)
    (scope : ScopeId) :
    (memory.restore scope snapshot).store = memory.store.restore scope (memory.map address) := by
  unfold restore
  rw [isTaken]
  dsimp only
  cases isScope : memory.scopes[scope]? with
  | none =>
    rw [Store.restore, modify_store_of_none isScope,
      List.modify_eq_self (List.getElem?_eq_none_iff.mp isScope)]
    exact store_add separate _
  | some found =>
    refine store_eq_modify isScope (List.length_modify ..) fun other found' isOther => ?_
    dsimp only
    rw [List.getElem?_modify, isOther, Option.map_eq_map, Option.map_some]
    split
    · exact ⟨_, rfl, map_add _⟩
    · exact ⟨_, rfl, map_add_of_lt (separate.hasMap isOther) _⟩

/-- A restore is seen in no snapshot. -/
theorem snapshots_restore (scope : ScopeId) (snapshot : Nat) :
    (memory.restore scope snapshot).snapshots = memory.snapshots := by
  unfold restore
  cases memory.taken[snapshot]? with
  | none => rfl
  | some address =>
    refine List.map_congr_left fun address isTaken => ?_
    exact map_add_of_lt (separate.hasMap_of_mem isTaken) _

/-- A restored scope has a map of its own again. -/
theorem Separate.restore (scope : ScopeId) (snapshot : Nat) :
    (memory.restore scope snapshot).Separate := by
  unfold MapMemory.restore
  cases memory.taken[snapshot]? with
  | none => exact separate
  | some address =>
    have longer : (memory.add (memory.map address)).maps.length = memory.maps.length + 1 :=
      List.length_append
    -- What is in a place is there with its old map, or is the restored scope with the new one.
    have origin {other : ScopeId} {found : MappedScope}
        (isScope : (memory.scopes.modify scope ({ · with address := memory.maps.length }))[other]? =
          some found) :
        (other = scope ∧ found.address = memory.maps.length) ∨
          memory.scopes[other]? = some found := by
      rw [List.getElem?_modify] at isScope
      obtain ⟨old, isOld, rfl⟩ := Option.map_eq_some_iff.mp isScope
      by_cases same : scope = other
      · rw [if_pos same]
        exact .inl ⟨same.symm, rfl⟩
      · rw [if_neg same]
        exact .inr isOld
    refine ⟨fun isScope isOther same => ?_, fun isScope isTaken => ?_, fun isScope => ?_,
      fun isTaken => ?_⟩
    · obtain ⟨rfl, isNew⟩ | isOld := origin isScope <;>
        obtain ⟨rfl, isNew'⟩ | isOld' := origin isOther
      · rfl
      · exact absurd (same.trans isNew) (Nat.ne_of_lt (separate.hasMap isOld'))
      · exact absurd (same.symm.trans isNew') (Nat.ne_of_lt (separate.hasMap isOld))
      · exact separate.scope_eq isOld isOld' same
    · obtain ⟨-, isNew⟩ | isOld := origin isScope
      · exact absurd isNew (Nat.ne_of_lt (separate.hasMap_of_mem isTaken))
      · exact separate.notMem_taken isOld isTaken
    · rw [longer]
      obtain ⟨-, isNew⟩ | isOld := origin isScope
      · exact isNew ▸ Nat.lt_succ_self _
      · exact Nat.lt_succ_of_lt (separate.hasMap isOld)
    · rw [longer]
      exact Nat.lt_succ_of_lt (separate.hasMap_of_mem isTaken)

end Steps

/-- A memory shows a state and its snapshots: what is seen in the maps is what these hold, and no map is
shared. -/
structure Shows (memory : MapMemory) (saved : SavedState) : Prop where
  store : memory.store = saved.state.store
  snapshots : memory.snapshots = saved.taken
  separate : memory.Separate

/-- A request asked in place does what it does to values. -/
theorem Shows.asked {saved : SavedState} (shows : memory.Shows saved) (scope : ScopeId)
    (request : SnapshotRequest) : (memory.asked scope request).Shows (saved.asked scope request) := by
  have separate := shows.separate
  cases request with
  | ask request =>
    have change := saved.state.store_asked scope request
    rw [← shows.store] at change
    cases request with
    | get name => exact ⟨change.symm, shows.snapshots, separate⟩
    | define name cell =>
      exact ⟨(store_define separate ..).trans change.symm,
        (snapshots_define separate ..).trans shows.snapshots, separate.define ..⟩
    | assign name cell =>
      rw [ScopeRequest.change, Store.assign?] at change
      unfold MapMemory.asked assign
      dsimp only
      cases isResolved : memory.store.resolve scope name.text with
      | none =>
        rw [isResolved] at change
        exact ⟨change.symm, shows.snapshots, separate⟩
      | some found =>
        rw [isResolved] at change
        exact ⟨(store_define separate ..).trans change.symm,
          (snapshots_define separate ..).trans shows.snapshots, separate.define ..⟩
  | take =>
    refine ⟨(store_take separate _).trans shows.store, ?_, separate.take _⟩
    exact (snapshots_take separate _).trans (by rw [shows.snapshots, shows.store]; rfl)
  | restore snapshot =>
    refine ⟨?_, ?_, separate.restore _ _⟩
    · have seen : saved.taken[snapshot]? = memory.taken[snapshot]?.map memory.map := by
        rw [← shows.snapshots]
        exact List.getElem?_map
      unfold SavedState.asked
      dsimp only
      rw [seen]
      cases isTaken : memory.taken[snapshot]? with
      | none =>
        unfold MapMemory.asked restore
        dsimp only
        rw [isTaken]
        exact shows.store
      | some address =>
        exact (store_restore separate isTaken scope).trans (by rw [shows.store]; rfl)
    · refine (snapshots_restore separate _ _).trans (shows.snapshots.trans ?_)
      unfold SavedState.asked
      dsimp only
      cases saved.taken[snapshot]? <;> rfl

/-- So do any number of requests. -/
theorem Shows.askedAll {saved : SavedState} (shows : memory.Shows saved)
    (requests : List (ScopeId × SnapshotRequest)) :
    (memory.askedAll requests).Shows (saved.askedAll requests) := by
  induction requests generalizing memory saved with
  | nil => exact shows
  | cons request requests ih => exact ih (shows.asked request.1 request.2)

/-- In a memory without shared maps, those of the scopes come first, and then those of the snapshots. -/
theorem map_ofStore (store : Store) (taken : List Bindings) (address : Nat) :
    (ofStore store taken).map address =
      if address < store.size then store.bindings address
      else (taken[address - store.size]?).getD [] := by
  unfold map ofStore Store.bindings
  dsimp only
  rw [List.getElem?_append, List.length_map, Array.length_toList, List.getElem?_map,
    Array.getElem?_toList]
  exact apply_ite (Option.getD · []) _ _ _

/-- Where each scope and each snapshot is given a map of its own, these are what is seen. -/
theorem shows_ofStore (saved : SavedState) :
    (ofStore saved.state.store saved.taken).Shows saved := by
  have scopes (id : ScopeId) : (ofStore saved.state.store saved.taken).scopes[id]? =
      saved.state.store.scopes[id]?.map fun scope => ⟨scope.enclosing, id⟩ := by
    simp [ofStore]
  have mapped {id : ScopeId} {found : MappedScope}
      (isScope : (ofStore saved.state.store saved.taken).scopes[id]? = some found) :
      found.address = id ∧ id < saved.state.store.size := by
    rw [scopes] at isScope
    obtain ⟨scope, isThere, rfl⟩ := Option.map_eq_some_iff.mp isScope
    exact ⟨rfl, (Array.getElem?_eq_some_iff.mp isThere).1⟩
  have length : (ofStore saved.state.store saved.taken).maps.length =
      saved.state.store.size + saved.taken.length := by
    simp [ofStore, Store.size]
  have bounds {address : Nat} (isAddress : address ∈ (ofStore saved.state.store saved.taken).taken) :
      saved.state.store.size ≤ address ∧ address < saved.state.store.size + saved.taken.length :=
    List.mem_range'_1.mp isAddress
  refine ⟨Store.ext_scopes ?_ (fun id => ?_) (fun id => ?_), ?_, ⟨?_, ?_, ?_, ?_⟩⟩
  · rw [size_store]
    simp [ofStore, Store.size]
  · rw [bindings_store, scopes]
    cases isScope : saved.state.store.scopes[id]? with
    | none => exact (Store.bindings_of_size_le (Array.getElem?_eq_none_iff.mp isScope)).symm
    | some scope =>
      exact (map_ofStore ..).trans (if_pos (Array.getElem?_eq_some_iff.mp isScope).1)
  · rw [enclosing?_store, scopes, Store.enclosing?]
    cases saved.state.store.scopes[id]? <;> rfl
  · refine List.ext_getElem (by simp [snapshots, ofStore]) fun index isIndex isThere => ?_
    have isTaken : index < (ofStore saved.state.store saved.taken).taken.length := by
      simpa [ofStore] using isThere
    have address : (ofStore saved.state.store saved.taken).taken[index] =
        saved.state.store.size + index := by
      simp [ofStore]
    refine (List.getElem_map _).trans ?_
    rw [address, map_ofStore, if_neg (Nat.not_lt_of_le (Nat.le_add_right ..)),
      Nat.add_sub_cancel_left, List.getElem?_eq_getElem isThere, Option.getD_some]
  · intro scope other found found' isScope isOther same
    rw [← (mapped isScope).1, ← (mapped isOther).1, same]
  · intro scope found isScope isAddress
    rw [(mapped isScope).1] at isAddress
    exact absurd (mapped isScope).2 (Nat.not_lt_of_le (bounds isAddress).1)
  · intro scope found isScope
    rw [(mapped isScope).1, length]
    exact Nat.lt_add_right _ (mapped isScope).2
  · intro address isAddress
    rw [length]
    exact (bounds isAddress).2

end MapMemory

/-- After a restore a scope binds what it bound at the snapshot, whatever was asked in between, and
everything else is as it was just before. Restoring once more changes nothing, and whatever is asked after
a restore, the snapshot can be restored again. All this is seen as well where the bindings are maps that
are changed in place, with a copy for each snapshot and for each restore. -/
theorem restore_undoes_requests :
    (∀ (start : SavedState) (scope : ScopeId) (requests : List (ScopeId × SnapshotRequest)),
      let snapshot := start.taken.length
      let before := (start.asked scope .take).askedAll requests
      let after := before.asked scope (.restore snapshot)
      (∀ other, after.state.store.bindings other =
        if other = scope then start.state.store.bindings scope
        else before.state.store.bindings other) ∧
      (after.state.store.size = before.state.store.size ∧
        ∀ other, after.state.store.enclosing? other = before.state.store.enclosing? other) ∧
      after.asked scope (.restore snapshot) = after ∧
      ∀ further, ((after.askedAll further).asked scope (.restore snapshot)).state.store.bindings scope =
        start.state.store.bindings scope) ∧
    ∀ (start : SavedState) (requests : List (ScopeId × SnapshotRequest)),
      let memory := (MapMemory.ofStore start.state.store start.taken).askedAll requests
      memory.store = (start.askedAll requests).state.store ∧
        memory.snapshots = (start.askedAll requests).taken := by
  refine ⟨fun start scope requests => ?_, fun start requests => ?_⟩
  · intro snapshot before after
    have isTaken (others) : ((start.asked scope .take).askedAll others).taken[snapshot]? =
        some (start.state.store.bindings scope) := start.taken_askedAll_take scope others
    have isAfter : after.state.store = before.state.store.restore scope _ :=
      congrArg (·.state.store) (SavedState.asked_restore (isTaken requests) scope)
    refine ⟨start.bindings_restored scope requests, ?_, ?_, fun further => ?_⟩
    · rw [isAfter]
      exact ⟨Store.size_modify _, fun other => Store.enclosing?_modify _⟩
    · exact SavedState.asked_restore_restore (isTaken requests) scope
    · have isLater : after.askedAll further = (start.asked scope .take).askedAll
          (requests ++ (scope, .restore snapshot) :: further) := by
        rw [SavedState.askedAll, SavedState.askedAll, List.foldl_append]
        rfl
      rw [isLater]
      exact (start.bindings_restored scope _ scope).trans (if_pos rfl)
  · have shows := (MapMemory.shows_ofStore start).askedAll requests
    exact ⟨shows.store, shows.snapshots⟩

end Lox
