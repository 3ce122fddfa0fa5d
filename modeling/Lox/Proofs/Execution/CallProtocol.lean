import Lox.Proofs.Execution.Fuel
import Lox.Proofs.Execution.Likeness
import Lox.Proofs.Execution.Upkeep

/-!
# How a call is evaluated

The rules say in which order the parts of a call are evaluated, which of several errors a call ends
with, and in which scope the body of a function runs. They speak of endings only and know nothing of
fuel: a call ends in some way if and only if the rules let it end so.

More fuel never changes how a step ends. So steps in sequence end as one after the other, with
whatever fuel each of them needs, and each rule is one part of such a sequence.
-/

namespace Lox

open Exec

variable {α β : Type}

/-- A step that a fuel bounds ends in an outcome, given enough fuel. -/
def EndsIn (step : Nat → Exec α) (state : State) (outcome : Outcome α) : Prop :=
  outcome ≠ .unfinished ∧ ∃ fuel, step fuel state = outcome

/-- More fuel does not change how a step ends. -/
def Steady (step : Nat → Exec α) : Prop :=
  ∀ fuel more, fuel ≤ more → ∀ state, Exec.Approximates (step fuel) (step more) state

section Endings

variable {step : Nat → Exec α} {state middle : State} {outcome : Outcome α}

/-- A step that has ended ends so with more fuel. -/
theorem Steady.eq_of_ended (steady : Steady step) {fuel more : Nat} (enough : fuel ≤ more)
    (ended : step fuel state = outcome) (isOver : outcome ≠ .unfinished) :
    step more state = outcome :=
  (steady fuel more enough state).eq_of_over ended isOver

/-- A steady step ends in one way at most. -/
theorem Steady.endsIn_unique (steady : Steady step) {other : Outcome α}
    (ends : EndsIn step state outcome) (ends' : EndsIn step state other) : outcome = other := by
  obtain ⟨isOver, fuel, ended⟩ := ends
  obtain ⟨isOver', fuel', ended'⟩ := ends'
  rw [← steady.eq_of_ended (le_max_left fuel fuel') ended isOver,
    ← steady.eq_of_ended (le_max_right fuel fuel') ended' isOver']

/-- Steady steps in sequence are steady. -/
theorem Steady.bind (steady : Steady step) {next : Nat → α → Exec β}
    (follow : ∀ value, Steady fun fuel => next fuel value) :
    Steady fun fuel => step fuel >>= next fuel :=
  fun fuel more enough state => (steady fuel more enough state).bind fun value after _ =>
    follow value fuel more enough after

/-- What needs no fuel is steady. -/
theorem steady_const (step : Exec α) : Steady fun _ => step :=
  fun _ _ _ state => .refl step state

/-- A step without need of fuel ends as it does. -/
theorem endsIn_const_iff {step : Exec α} :
    EndsIn (fun _ => step) state outcome ↔ outcome ≠ .unfinished ∧ step state = outcome :=
  ⟨fun ⟨isOver, _, ended⟩ => ⟨isOver, ended⟩, fun ⟨isOver, ended⟩ => ⟨isOver, 0, ended⟩⟩

/-- A step that takes one unit of fuel before another one ends as that. -/
theorem endsIn_succ_iff {spent : Nat → Exec α} (empty : spent 0 = Exec.unfinished)
    (succ : ∀ fuel, spent (fuel + 1) = step fuel) :
    EndsIn spent state outcome ↔ EndsIn step state outcome := by
  constructor
  · rintro ⟨isOver, fuel, ended⟩
    cases fuel with
    | zero =>
      rw [empty] at ended
      exact absurd ended.symm isOver
    | succ fuel => exact ⟨isOver, fuel, succ fuel ▸ ended⟩
  · rintro ⟨isOver, fuel, ended⟩
    exact ⟨isOver, fuel + 1, (succ fuel).symm ▸ ended⟩

/-- Steps in sequence end as the first one if that fails, and otherwise as the second one does where
the first one has ended. -/
theorem endsIn_bind_iff {next : Nat → α → Exec β} {outcome : Outcome β} (steady : Steady step)
    (follow : ∀ value, Steady fun fuel => next fuel value) :
    EndsIn (fun fuel => step fuel >>= next fuel) state outcome ↔
      (∃ fault after, outcome = .failed fault after ∧ EndsIn step state (.failed fault after)) ∨
        ∃ value middle, EndsIn step state (.done value middle) ∧
          EndsIn (fun fuel => next fuel value) middle outcome := by
  constructor
  · rintro ⟨isOver, fuel, ended⟩
    change andThen (step fuel) (next fuel) state = outcome at ended
    unfold andThen at ended
    cases first : step fuel state with
    | done value middle =>
      rw [first] at ended
      exact .inr ⟨value, middle, ⟨nofun, fuel, first⟩, isOver, fuel, ended⟩
    | failed fault after =>
      rw [first] at ended
      exact .inl ⟨fault, after, ended.symm, nofun, fuel, first⟩
    | unfinished =>
      rw [first] at ended
      exact absurd ended.symm isOver
  · rintro (⟨fault, after, rfl, -, fuel, first⟩ |
      ⟨value, middle, ⟨isOver, fuel, first⟩, isOver', fuel', ended⟩)
    · refine ⟨nofun, fuel, ?_⟩
      change andThen (step fuel) (next fuel) state = _
      unfold andThen
      rw [first]
    · refine ⟨isOver', max fuel fuel', ?_⟩
      change andThen (step (max fuel fuel')) (next (max fuel fuel')) state = outcome
      unfold andThen
      rw [steady.eq_of_ended (le_max_left _ _) first isOver]
      exact (follow value).eq_of_ended (le_max_right _ _) ended isOver'

/-- A step in a new scope ends as it does inside, and the scope is left then. -/
theorem endsIn_inScope_iff {enclosing : ScopeId} {bindings : Bindings} :
    EndsIn (fun fuel => inScope enclosing bindings (step fuel)) state outcome ↔
      (∃ value after, EndsIn step (enter enclosing bindings state) (.done value after) ∧
        outcome = .done value (leave state.current state.store.size after)) ∨
      ∃ fault after, EndsIn step (enter enclosing bindings state) (.failed fault after) ∧
        outcome = .failed fault (leave state.current state.store.size after) := by
  constructor
  · rintro ⟨isOver, fuel, ended⟩
    change inScope enclosing bindings (step fuel) state = outcome at ended
    unfold inScope at ended
    cases inside : step fuel (enter enclosing bindings state) with
    | done value after =>
      rw [inside] at ended
      exact .inl ⟨value, after, ⟨nofun, fuel, inside⟩, ended.symm⟩
    | failed fault after =>
      rw [inside] at ended
      exact .inr ⟨fault, after, ⟨nofun, fuel, inside⟩, ended.symm⟩
    | unfinished =>
      rw [inside] at ended
      exact absurd ended.symm isOver
  · rintro (⟨value, after, ⟨-, fuel, inside⟩, rfl⟩ | ⟨fault, after, ⟨-, fuel, inside⟩, rfl⟩)
    all_goals
      refine ⟨nofun, fuel, ?_⟩
      change inScope enclosing bindings (step fuel) state = _
      unfold inScope
      rw [inside]

end Endings

section Steady

/-- Evaluating an expression is steady. -/
theorem steady_evaluate (context : Context) (expression : Node) :
    Steady fun fuel => evaluate fuel context expression :=
  fun _ _ enough => (approximated enough).evaluate context expression

/-- Evaluating several expressions is steady. -/
theorem steady_mapM (context : Context) (expressions : List Node) :
    Steady fun fuel => expressions.mapM (evaluate fuel context) :=
  fun _ _ enough => (approximated enough).evaluateAll context expressions

/-- Executing statements is steady, and so it is in a new scope. -/
theorem steady_inScope (context : Context) (statements : Program) (enclosing : ScopeId)
    (bindings : Bindings) :
    Steady fun fuel => inScope enclosing bindings (statements.forM (execute fuel context)) :=
  fun _ _ enough _ => .inScope ((approximated enough).statements context statements _)

/-- Calls with a check are steady. -/
theorem steady_callChecked (context : Context) (line : Int) (callee : Cell) (arguments : List Cell) :
    Steady fun fuel => callChecked fuel context line callee arguments :=
  fun _ _ enough => (approximated enough).callChecked context line callee arguments

/-- Calls without a check are steady. -/
theorem steady_call (context : Context) (line : Int) (callee : Cell) (arguments : List Cell) :
    Steady fun fuel => call fuel context line callee arguments :=
  fun _ _ enough => (approximated enough).call context line callee arguments

end Steady

section Parameters

/-- Bindings of parameters to arguments: the names of the parameters are bound and no others, each of
them once and to the argument at its last place among the parameters. -/
structure BindsParameters (parameters : List Token) (arguments : List Cell) (bindings : Bindings) :
    Prop where
  distinct : (bindings.map Prod.fst).Nodup
  names : ∀ name, name ∈ bindings.map Prod.fst ↔ name ∈ parameters.map Token.text
  cells : ∀ (place : Nat) (parameter : Token), parameters[place]? = some parameter →
    (∀ (later : Nat) (other : Token), place < later → parameters[later]? = some other →
      other.text ≠ parameter.text) →
    bindings.get? parameter.text = arguments[place]?

/-- Binding a name anew adds it behind the others, unless it is one of them. -/
theorem Bindings.names_put (bindings : Bindings) (name : Text) (cell : Cell) :
    (bindings.put name cell).map Prod.fst =
      if name ∈ bindings.map Prod.fst then bindings.map Prod.fst
      else bindings.map Prod.fst ++ [name] := by
  induction bindings with
  | nil => rfl
  | cons binding rest ih =>
    obtain ⟨other, old⟩ := binding
    unfold put
    by_cases same : other = name
    · simp [same]
    · rw [if_neg same, List.map_cons, ih]
      simp only [List.map_cons, List.mem_cons, Ne.symm same, false_or]
      split <;> rfl

variable {parameters : List Token} {arguments : List Cell} {bound bindings : Bindings}

/-- Parameters are bound besides what is bound already, and each name is bound once. -/
theorem names_bindParameters (isBound : bindParameters parameters arguments bound = some bindings)
    (distinct : (bound.map Prod.fst).Nodup) :
    (bindings.map Prod.fst).Nodup ∧ ∀ name, name ∈ bindings.map Prod.fst ↔
      name ∈ bound.map Prod.fst ∨ name ∈ parameters.map Token.text := by
  induction parameters generalizing arguments bound with
  | nil =>
    obtain rfl := Option.some.inj isBound
    exact ⟨distinct, fun name => by simp⟩
  | cons parameter parameters ih =>
    cases arguments with
    | nil => cases isBound
    | cons argument arguments =>
      have put := bound.names_put parameter.text argument
      split at put
      · next isOld =>
        obtain ⟨distinct', names⟩ := ih isBound (put ▸ distinct)
        refine ⟨distinct', fun name => ?_⟩
        rw [names, put, List.map_cons, List.mem_cons]
        refine or_congr_right' fun isNew => ⟨.inr, fun isName => isName.resolve_left ?_⟩
        rintro rfl
        exact isNew isOld
      · next isNew =>
        have distinct' : (bound.map Prod.fst ++ [parameter.text]).Nodup :=
          List.nodup_append_comm.mp (List.nodup_cons.mpr ⟨isNew, distinct⟩)
        obtain ⟨distinct', names⟩ := ih isBound (put ▸ distinct')
        refine ⟨distinct', fun name => ?_⟩
        rw [names, put, List.map_cons, List.mem_cons, List.mem_append, List.mem_singleton, or_assoc]

/-- A name that no parameter has is bound to what it was. -/
theorem get?_bindParameters_of_notMem
    (isBound : bindParameters parameters arguments bound = some bindings) {name : Text}
    (isOther : name ∉ parameters.map Token.text) : bindings.get? name = bound.get? name := by
  induction parameters generalizing arguments bound with
  | nil =>
    obtain rfl := Option.some.inj isBound
    rfl
  | cons parameter parameters ih =>
    cases arguments with
    | nil => cases isBound
    | cons argument arguments =>
      rw [List.map_cons, List.mem_cons, not_or] at isOther
      rw [ih isBound isOther.2, Bindings.get?_put, if_neg isOther.1]

/-- A parameter that is the last one of its name is bound to the argument at its place. -/
theorem get?_bindParameters (isBound : bindParameters parameters arguments bound = some bindings)
    {place : Nat} {parameter : Token} (isParameter : parameters[place]? = some parameter)
    (isLast : ∀ later other, place < later → parameters[later]? = some other →
      other.text ≠ parameter.text) :
    bindings.get? parameter.text = arguments[place]? := by
  induction parameters generalizing arguments bound place with
  | nil => cases isParameter
  | cons first parameters ih =>
    cases arguments with
    | nil => cases isBound
    | cons argument arguments =>
      replace isBound : bindParameters parameters arguments (bound.put first.text argument) =
        some bindings := isBound
      cases place with
      | zero =>
        obtain rfl := Option.some.inj isParameter
        have isOther : first.text ∉ parameters.map Token.text := by
          rintro isLater
          obtain ⟨other, isOther, same⟩ := List.mem_map.mp isLater
          obtain ⟨later, isThere⟩ := List.mem_iff_getElem?.mp isOther
          exact isLast (later + 1) other (Nat.succ_pos later) isThere same
        rw [get?_bindParameters_of_notMem isBound isOther, Bindings.get?_put, if_pos rfl]
        rfl
      | succ place =>
        exact ih isBound isParameter fun later other isLater =>
          isLast (later + 1) other (Nat.succ_lt_succ isLater)

/-- Parameters are bound as they should be. -/
theorem binds_bindParameters (isBound : bindParameters parameters arguments [] = some bindings) :
    BindsParameters parameters arguments bindings := by
  obtain ⟨distinct, names⟩ := names_bindParameters isBound .nil
  exact ⟨distinct, fun name => (names name).trans (by simp),
    fun place parameter => get?_bindParameters isBound⟩

end Parameters

section Rules

/-- The line of the trace about a call. -/
def callLine (callee : Cell) (arguments : List Cell) : Text :=
  ("call " : Text) ++ callee.value.shown ++ " with " ++ Text.ofNat arguments.length ++ " argument(s)"

/-- An expression is evaluated in a scope and ends in an outcome. -/
structure Evaluates (context : Context) (scope : ScopeId) (expression : Node) (state : State)
    (outcome : Outcome Cell) : Prop where
  inCaller : state.current = scope
  ends : EndsIn (fun fuel => evaluate fuel context expression) state outcome

/-- How arguments end that are evaluated from left to right in a scope, each in the state that the one
before has left: with the error of the first one that fails, or with all their cells. -/
inductive ArgumentsEnd (context : Context) (scope : ScopeId) :
    List Node → State → Outcome (List Cell) → Prop
  | none {state : State} : ArgumentsEnd context scope [] state (.done [] state)
  | firstFails {argument : Node} {arguments : List Node} {state after : State} {fault : Fault}
      (fails : Evaluates context scope argument state (.failed fault after)) :
      ArgumentsEnd context scope (argument :: arguments) state (.failed fault after)
  | laterFails {argument : Node} {arguments : List Node} {state middle after : State} {cell : Cell}
      {fault : Fault} (first : Evaluates context scope argument state (.done cell middle))
      (fails : ArgumentsEnd context scope arguments middle (.failed fault after)) :
      ArgumentsEnd context scope (argument :: arguments) state (.failed fault after)
  | all {argument : Node} {arguments : List Node} {state middle after : State} {cell : Cell}
      {cells : List Cell} (first : Evaluates context scope argument state (.done cell middle))
      (later : ArgumentsEnd context scope arguments middle (.done cells after)) :
      ArgumentsEnd context scope (argument :: arguments) state (.done (cell :: cells) after)

/-- How a function ends that was given as many arguments as it asks for. The body of a declared function
is executed in a new scope that the global one encloses, which is left however the body ends. -/
inductive FunctionEnds (context : Context) (line : Int) (callee : Cell) (arguments : List Cell)
    (state : State) : Outcome Cell → Prop
  | native {outcome : Outcome Cell} (isNative : callee.value.kind = .native)
      (ends : EndsIn (fun fuel => call fuel context line callee arguments) state outcome) :
      FunctionEnds context line callee arguments state outcome
  | tooDeep {declaration : Declaration} (isFunction : callee.value = .function declaration)
      (deepest : context.callsLeft = 0) :
      FunctionEnds context line callee arguments state (.failed (.runtime ⟨.stackOverflow, line⟩) state)
  | bodyEnds {declaration : Declaration} {bindings : Bindings} {callsLeft : Nat} {after : State}
      (isFunction : callee.value = .function declaration)
      (isLess : context.callsLeft = callsLeft + 1)
      (isBound : bindParameters declaration.parameters arguments [] = some bindings)
      (binds : BindsParameters declaration.parameters arguments bindings)
      (ends : EndsIn
        (fun fuel => declaration.body.forM (execute fuel { context with callsLeft := callsLeft }))
        (enter globals bindings state) (.done () after)) :
      FunctionEnds context line callee arguments state
        (.done Cell.nil (leave state.current state.store.size after))
  | bodyFails {declaration : Declaration} {bindings : Bindings} {callsLeft : Nat} {fault : Fault}
      {after : State} (isFunction : callee.value = .function declaration)
      (isLess : context.callsLeft = callsLeft + 1)
      (isBound : bindParameters declaration.parameters arguments [] = some bindings)
      (binds : BindsParameters declaration.parameters arguments bindings)
      (ends : EndsIn
        (fun fuel => declaration.body.forM (execute fuel { context with callsLeft := callsLeft }))
        (enter globals bindings state) (.failed fault after)) :
      FunctionEnds context line callee arguments state
        (.failed fault (leave state.current state.store.size after))

/-- How a value ends that is called with arguments. It has to be a function and to ask for so many
arguments, and neither error changes anything. -/
inductive CheckedEnds (context : Context) (line : Int) (callee : Cell) (arguments : List Cell)
    (state : State) : Outcome Cell → Prop
  | notCallable (notFunction : callee.value.kind ≠ .function) (notNative : callee.value.kind ≠ .native) :
      CheckedEnds context line callee arguments state (.failed (.runtime ⟨.notCallable, line⟩) state)
  | arityMismatch {arity : Int} (asks : callee.value.arity? = some arity)
      (others : (arguments.length : Int) ≠ arity) :
      CheckedEnds context line callee arguments state
        (.failed (.runtime ⟨.arityMismatch arity arguments.length, line⟩) state)
  | untraced {fault : Fault} {after : State}
      (asks : callee.value.arity? = some (arguments.length : Int))
      (fails : context.trace 2 (callLine callee arguments) state = .failed fault after) :
      CheckedEnds context line callee arguments state (.failed fault after)
  | called {trace : Array Text} {outcome : Outcome Cell}
      (asks : callee.value.arity? = some (arguments.length : Int))
      (traced : context.trace 2 (callLine callee arguments) state =
        .done () { state with trace := trace })
      (ends : FunctionEnds context line callee arguments { state with trace := trace } outcome) :
      CheckedEnds context line callee arguments state outcome

/-- How a call ends. The callee is evaluated first and the arguments after it, all in the scope of the
caller, and only then the cell of the callee is looked at. -/
inductive CallEnds (context : Context) (callee : Node) (line : Int) (arguments : List Node)
    (state : State) : Outcome Cell → Prop
  | calleeFails {fault : Fault} {after : State}
      (fails : Evaluates context state.current callee state (.failed fault after)) :
      CallEnds context callee line arguments state (.failed fault after)
  | argumentFails {cell : Cell} {middle after : State} {fault : Fault}
      (first : Evaluates context state.current callee state (.done cell middle))
      (fails : ArgumentsEnd context state.current arguments middle (.failed fault after)) :
      CallEnds context callee line arguments state (.failed fault after)
  | checked {cell : Cell} {cells : List Cell} {middle after : State} {outcome : Outcome Cell}
      (first : Evaluates context state.current callee state (.done cell middle))
      (later : ArgumentsEnd context state.current arguments middle (.done cells after))
      (ends : CheckedEnds context line cell cells after outcome) :
      CallEnds context callee line arguments state outcome

variable {context : Context} {scope : ScopeId} {expression : Node} {line : Int} {callee : Cell}
  {cells : List Cell} {state after : State}

/-- However an expression ends, the scope that it was evaluated in is the current one again. -/
theorem Evaluates.current {outcome : Outcome Cell}
    (evaluates : Evaluates context scope expression state outcome)
    (isAfter : after ∈ outcome.last) : after.current = scope := by
  obtain ⟨fuel, ended⟩ := evaluates.ends.2
  rw [← ended] at isAfter
  exact (kept_evaluate isAfter).current.trans evaluates.inCaller

/-- Arguments end as the rules say. -/
theorem endsIn_mapM_iff {arguments : List Node} {outcome : Outcome (List Cell)}
    (inCaller : state.current = scope) :
    EndsIn (fun fuel => arguments.mapM (evaluate fuel context)) state outcome ↔
      ArgumentsEnd context scope arguments state outcome := by
  induction arguments generalizing state outcome with
  | nil =>
    simp only [List.mapM_nil]
    rw [endsIn_const_iff]
    constructor
    · rintro ⟨-, rfl⟩
      exact .none
    · rintro ⟨⟩
      exact ⟨nofun, rfl⟩
  | cons argument arguments ih =>
    simp only [List.mapM_cons]
    have collect (cell : Cell) {state : State} {outcome : Outcome (List Cell)} :
        EndsIn (fun fuel => arguments.mapM (evaluate fuel context) >>= fun cells => pure (cell :: cells))
          state outcome ↔ _ :=
      endsIn_bind_iff (steady_mapM context arguments) fun cells => steady_const _
    have follow (cell : Cell) : Steady fun fuel =>
        arguments.mapM (evaluate fuel context) >>= fun cells => pure (cell :: cells) :=
      (steady_mapM context arguments).bind fun cells => steady_const _
    rw [endsIn_bind_iff (steady_evaluate context argument) follow]
    constructor
    · rintro (⟨fault, after, rfl, fails⟩ | ⟨cell, middle, first, later⟩)
      · exact .firstFails ⟨inCaller, fails⟩
      · have isFirst : Evaluates context scope argument state (.done cell middle) := ⟨inCaller, first⟩
        have inCaller' := isFirst.current (List.mem_singleton_self middle)
        obtain ⟨fault, after, rfl, fails⟩ | ⟨cells, after, all, last⟩ := (collect cell).mp later
        · exact .laterFails isFirst ((ih inCaller').mp fails)
        · obtain ⟨-, rfl⟩ := endsIn_const_iff.mp last
          exact .all isFirst ((ih inCaller').mp all)
    · rintro (_ | fails | ⟨first, fails⟩ | ⟨first, later⟩)
      · exact .inl ⟨_, _, rfl, fails.ends⟩
      · have inCaller' := first.current (List.mem_singleton_self _)
        exact .inr ⟨_, _, first.ends, (collect _).mpr (.inl ⟨_, _, rfl, (ih inCaller').mpr fails⟩)⟩
      · have inCaller' := first.current (List.mem_singleton_self _)
        exact .inr ⟨_, _, first.ends, (collect _).mpr
          (.inr ⟨_, _, (ih inCaller').mpr later, endsIn_const_iff.mpr ⟨nofun, rfl⟩⟩)⟩

/-- A declared function that may be called binds its parameters and executes its body in a new scope. -/
theorem call_function {declaration : Declaration} {bindings : Bindings} {callsLeft : Nat}
    (isFunction : callee.value = .function declaration) (isLess : context.callsLeft = callsLeft + 1)
    (isBound : bindParameters declaration.parameters cells [] = some bindings) (fuel : Nat) :
    call (fuel + 1) context line callee cells =
      inScope globals bindings
        (declaration.body.forM (execute fuel { context with callsLeft := callsLeft })) >>=
          fun _ => pure Cell.nil := by
  simp only [call, isFunction, isLess, isBound]

/-- A declared function fails where no more calls are left. -/
theorem call_function_of_none_left {declaration : Declaration}
    (isFunction : callee.value = .function declaration) (isLeft : context.callsLeft = 0) (fuel : Nat) :
    call (fuel + 1) context line callee cells = failAt line .stackOverflow := by
  simp only [call, isFunction, isLeft]

/-- A function ends as the rules say. -/
theorem endsIn_call_iff {outcome : Outcome Cell}
    (asks : callee.value.arity? = some (cells.length : Int)) :
    EndsIn (fun fuel => call fuel context line callee cells) state outcome ↔
      FunctionEnds context line callee cells state outcome := by
  cases isCallee : callee.value with
  | native name arity operation =>
    refine ⟨fun ends => .native (by rw [isCallee]; rfl) ends, fun ends => ?_⟩
    cases ends with
    | native _ ends => exact ends
    | tooDeep isFunction => cases isCallee.symm.trans isFunction
    | bodyEnds isFunction => cases isCallee.symm.trans isFunction
    | bodyFails isFunction => cases isCallee.symm.trans isFunction
  | function declaration =>
    cases isLeft : context.callsLeft with
    | zero =>
      rw [endsIn_succ_iff rfl (call_function_of_none_left isCallee isLeft), endsIn_const_iff]
      constructor
      · rintro ⟨-, rfl⟩
        exact .tooDeep isCallee isLeft
      · intro ends
        cases ends with
        | native isNative => cases (congrArg Value.kind isCallee).symm.trans isNative
        | tooDeep => exact ⟨nofun, rfl⟩
        | bodyEnds _ isLess => cases isLeft.symm.trans isLess
        | bodyFails _ isLess => cases isLeft.symm.trans isLess
    | succ callsLeft =>
      have same : cells.length = declaration.parameters.length := by
        rw [isCallee] at asks
        exact Int.ofNat_inj.mp (Option.some.inj asks).symm
      obtain ⟨bindings, isBound⟩ :=
        Option.ne_none_iff_exists'.mp (bindParameters_ne_none [] same)
      rw [endsIn_succ_iff rfl (call_function isCallee isLeft isBound),
        endsIn_bind_iff (steady_inScope _ _ _ _) fun _ => steady_const _]
      constructor
      · rintro (⟨fault, after, rfl, fails⟩ | ⟨value, after, ends, last⟩)
        · obtain ⟨_, _, _, isFailed⟩ | ⟨_, inside, bodyFails, isFailed⟩ := endsIn_inScope_iff.mp fails
          · cases isFailed
          · cases isFailed
            exact .bodyFails isCallee isLeft isBound (binds_bindParameters isBound) bodyFails
        · obtain ⟨-, rfl⟩ := endsIn_const_iff.mp last
          obtain ⟨_, inside, bodyEnds, isDone⟩ | ⟨_, _, _, isDone⟩ := endsIn_inScope_iff.mp ends
          · cases isDone
            exact .bodyEnds isCallee isLeft isBound (binds_bindParameters isBound) bodyEnds
          · cases isDone
      · intro ends
        cases ends with
        | native isNative => cases (congrArg Value.kind isCallee).symm.trans isNative
        | tooDeep _ deepest => cases isLeft.symm.trans deepest
        | bodyEnds isFunction isLess isBound' _ ends =>
          cases isCallee.symm.trans isFunction
          cases isLeft.symm.trans isLess
          cases isBound.symm.trans isBound'
          exact .inr ⟨(), _, endsIn_inScope_iff.mpr (.inl ⟨(), _, ends, rfl⟩),
            endsIn_const_iff.mpr ⟨nofun, rfl⟩⟩
        | bodyFails isFunction isLess isBound' _ ends =>
          cases isCallee.symm.trans isFunction
          cases isLeft.symm.trans isLess
          cases isBound.symm.trans isBound'
          exact .inl ⟨_, _, rfl, endsIn_inScope_iff.mpr (.inr ⟨_, _, ends, rfl⟩)⟩
  | nil | bool | number | text =>
    rw [isCallee] at asks
    cases asks

/-- What is neither a declared function nor one of the host's asks for no number of arguments. -/
theorem arity?_eq_none_iff (value : Value) :
    value.arity? = none ↔ value.kind ≠ .function ∧ value.kind ≠ .native := by
  cases value <;> simp [Value.arity?, Value.kind]

/-- A line that is traced leaves everything but the trace alone. -/
theorem trace_eq_done {level : Nat} {text : Text}
    (traced : context.trace level text state = .done () after) :
    ∃ trace, after = { state with trace := trace } := by
  unfold Context.trace at traced
  by_cases isTraced : level ≤ context.debugLevel
  · rw [if_pos isTraced] at traced
    cases isError : context.traceError? text with
    | some error =>
      rw [isError] at traced
      cases traced
    | none =>
      rw [isError] at traced
      cases traced
      exact ⟨_, rfl⟩
  · rw [if_neg isTraced] at traced
    cases traced
    exact ⟨_, rfl⟩

/-- A value that asks for no number of arguments cannot be called. -/
theorem callChecked_eq_notCallable (asks : callee.value.arity? = none) (fuel : Nat) :
    callChecked (fuel + 1) context line callee cells = failAt line .notCallable := by
  simp only [callChecked, asks]

/-- A value is not called with another number of arguments than it asks for. -/
theorem callChecked_eq_arityMismatch {arity : Int} (asks : callee.value.arity? = some arity)
    (others : (cells.length : Int) ≠ arity) (fuel : Nat) :
    callChecked (fuel + 1) context line callee cells =
      failAt line (.arityMismatch arity cells.length) := by
  simp only [callChecked, asks, if_neg others]

/-- A value is called with as many arguments as it asks for, after a line of the trace about that. -/
theorem callChecked_eq_call (asks : callee.value.arity? = some (cells.length : Int)) (fuel : Nat) :
    callChecked (fuel + 1) context line callee cells =
      context.trace 2 (callLine callee cells) >>= fun _ => call fuel context line callee cells := by
  simp only [callChecked, asks, if_true]
  rfl

/-- A value that is called ends as the rules say. -/
theorem endsIn_callChecked_iff {outcome : Outcome Cell} :
    EndsIn (fun fuel => callChecked fuel context line callee cells) state outcome ↔
      CheckedEnds context line callee cells state outcome := by
  cases asks : callee.value.arity? with
  | none =>
    have notFunction := (arity?_eq_none_iff callee.value).mp asks
    rw [endsIn_succ_iff rfl (callChecked_eq_notCallable asks), endsIn_const_iff]
    constructor
    · rintro ⟨-, rfl⟩
      exact .notCallable notFunction.1 notFunction.2
    · intro ends
      cases ends with
      | notCallable => exact ⟨nofun, rfl⟩
      | arityMismatch asks' | untraced asks' | called asks' => cases asks.symm.trans asks'
  | some arity =>
    have isFunction : ¬(callee.value.kind ≠ .function ∧ callee.value.kind ≠ .native) := by
      rw [← arity?_eq_none_iff, asks]
      exact nofun
    by_cases same : (cells.length : Int) = arity
    · subst same
      rw [endsIn_succ_iff rfl (callChecked_eq_call asks),
        endsIn_bind_iff (steady_const _) fun _ => steady_call _ _ _ _]
      constructor
      · rintro (⟨fault, after, rfl, fails⟩ | ⟨⟨⟩, after, traced, ends⟩)
        · exact .untraced asks (endsIn_const_iff.mp fails).2
        · have isTraced := (endsIn_const_iff.mp traced).2
          obtain ⟨trace, rfl⟩ := trace_eq_done isTraced
          exact .called asks isTraced ((endsIn_call_iff asks).mp ends)
      · intro ends
        cases ends with
        | notCallable notFunction notNative => exact absurd ⟨notFunction, notNative⟩ isFunction
        | arityMismatch asks' others => exact absurd (Option.some.inj (asks.symm.trans asks')) others
        | untraced _ fails => exact .inl ⟨_, _, rfl, endsIn_const_iff.mpr ⟨nofun, fails⟩⟩
        | called _ traced ends =>
          exact .inr ⟨(), _, endsIn_const_iff.mpr ⟨nofun, traced⟩, (endsIn_call_iff asks).mpr ends⟩
    · rw [endsIn_succ_iff rfl (callChecked_eq_arityMismatch asks same), endsIn_const_iff]
      constructor
      · rintro ⟨-, rfl⟩
        exact .arityMismatch asks same
      · intro ends
        cases ends with
        | notCallable notFunction notNative => exact absurd ⟨notFunction, notNative⟩ isFunction
        | arityMismatch asks' =>
          cases asks.symm.trans asks'
          exact ⟨nofun, rfl⟩
        | untraced asks' | called asks' =>
          exact absurd (Option.some.inj (asks.symm.trans asks')).symm same

/-- A call ends in some way if and only if the rules let it end so, and it ends in one way at most. The
scope that it was evaluated in is current again then. -/
theorem call_ends_iff (context : Context) (callee : Node) (paren : Token) (arguments : List Node)
    (state : State) :
    (∀ outcome,
      EndsIn (fun fuel => evaluate fuel context (.call callee paren arguments)) state outcome ↔
        CallEnds context callee paren.line arguments state outcome) ∧
    ∀ outcome, CallEnds context callee paren.line arguments state outcome →
      (∀ other, CallEnds context callee paren.line arguments state other → other = outcome) ∧
      ∀ after ∈ outcome.last, after.current = state.current := by
  have ends (outcome : Outcome Cell) :
      EndsIn (fun fuel => evaluate fuel context (.call callee paren arguments)) state outcome ↔
        CallEnds context callee paren.line arguments state outcome := by
    have step (fuel : Nat) : evaluate (fuel + 1) context (.call callee paren arguments) =
        evaluate fuel context callee >>= fun cell => arguments.mapM (evaluate fuel context) >>=
          fun cells => callChecked fuel context paren.line cell cells := rfl
    have check (cell : Cell) {state : State} :
        EndsIn (fun fuel => arguments.mapM (evaluate fuel context) >>= fun cells =>
          callChecked fuel context paren.line cell cells) state outcome ↔ _ :=
      endsIn_bind_iff (steady_mapM context arguments) fun cells =>
        steady_callChecked context paren.line cell cells
    have follow (cell : Cell) : Steady fun fuel => arguments.mapM (evaluate fuel context) >>=
        fun cells => callChecked fuel context paren.line cell cells :=
      (steady_mapM context arguments).bind fun cells => steady_callChecked _ _ _ _
    rw [endsIn_succ_iff rfl step, endsIn_bind_iff (steady_evaluate context callee) follow]
    constructor
    · rintro (⟨fault, after, rfl, fails⟩ | ⟨cell, middle, first, later⟩)
      · exact .calleeFails ⟨rfl, fails⟩
      · have isFirst : Evaluates context state.current callee state (.done cell middle) := ⟨rfl, first⟩
        have inCaller := isFirst.current (List.mem_singleton_self middle)
        obtain ⟨fault, after, rfl, fails⟩ | ⟨cells, after, all, last⟩ := (check cell).mp later
        · exact .argumentFails isFirst ((endsIn_mapM_iff inCaller).mp fails)
        · exact .checked isFirst ((endsIn_mapM_iff inCaller).mp all) (endsIn_callChecked_iff.mp last)
    · rintro (fails | ⟨first, fails⟩ | ⟨first, later, ends⟩)
      · exact .inl ⟨_, _, rfl, fails.ends⟩
      · have inCaller := first.current (List.mem_singleton_self _)
        exact .inr ⟨_, _, first.ends,
          (check _).mpr (.inl ⟨_, _, rfl, (endsIn_mapM_iff inCaller).mpr fails⟩)⟩
      · have inCaller := first.current (List.mem_singleton_self _)
        exact .inr ⟨_, _, first.ends, (check _).mpr
          (.inr ⟨_, _, (endsIn_mapM_iff inCaller).mpr later, endsIn_callChecked_iff.mpr ends⟩)⟩
  refine ⟨ends, fun outcome rules => ⟨fun other rules' => ?_, fun after isAfter => ?_⟩⟩
  · exact (steady_evaluate _ _).endsIn_unique ((ends other).mpr rules') ((ends outcome).mpr rules)
  · have evaluates : Evaluates context state.current (.call callee paren arguments) state outcome :=
      ⟨rfl, (ends outcome).mpr rules⟩
    exact evaluates.current isAfter

end Rules

end Lox
