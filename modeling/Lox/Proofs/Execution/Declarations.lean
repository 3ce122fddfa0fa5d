import Lox.Proofs.Execution.Effects

/-!
# Which names an execution declares

A statement may declare names in the current scope: the statement itself does so, or one of its parts
outside of blocks and functions. Which of these parts are executed depends on the conditions before them.

After an execution the current scope binds the names that it bound before and those that were declared on
the way, whether the execution ended normally or in a fault. Every other scope binds what it bound.
-/

namespace Lox

open State

/-- The value that a variable begins with. -/
def initialValue (fuel : Nat) (context : Context) : Node → Exec Cell
  | .null => pure Cell.nil
  | value => evaluate fuel context value

/-- Evaluates a condition and traces whether it holds. -/
def testCondition (fuel : Nat) (context : Context) (introduction : Text) (condition : Node) :
    Exec Bool := do
  let cell ← evaluate fuel context condition
  let holds := cell.value.truthy
  context.trace 3 (introduction ++ shownCondition holds)
  pure holds

/-- A name is declared in the current scope when a statement is executed: by the statement, or by a part of
it that is executed outside of blocks. A variable is declared once its first value is there. -/
inductive Declares (context : Context) (name : Text) : (fuel : Nat) → Node → State → Prop
  | var {fuel : Nat} {token : Token} {initializer : Node} {state middle : State} {cell : Cell}
      (isName : token.text = name)
      (isThere : initialValue fuel context initializer state = .done cell middle) :
      Declares context name (fuel + 1) (.var token initializer) state
  | function {fuel : Nat} {token : Token} {parameters : List Token} {body : Program} {state : State}
      (isName : token.text = name) :
      Declares context name (fuel + 1) (.function token parameters body) state
  | thenBranch {fuel : Nat} {condition thenBranch elseBranch : Node} {state middle : State}
      (holds : testCondition fuel context "if condition -> " condition state = .done true middle)
      (declares : Declares context name fuel thenBranch middle) :
      Declares context name (fuel + 1) (.conditional condition thenBranch elseBranch) state
  | elseBranch {fuel : Nat} {condition thenBranch elseBranch : Node} {state middle : State}
      (fails : testCondition fuel context "if condition -> " condition state = .done false middle)
      (declares : Declares context name fuel elseBranch middle) :
      Declares context name (fuel + 1) (.conditional condition thenBranch elseBranch) state
  | firstRound {fuel : Nat} {condition body : Node} {state middle : State}
      (holds : testCondition fuel context "while condition -> " condition state = .done true middle)
      (declares : Declares context name fuel body middle) :
      Declares context name (fuel + 1) (.loop condition body) state
  | laterRound {fuel : Nat} {condition body : Node} {state middle last : State}
      (holds : testCondition fuel context "while condition -> " condition state = .done true middle)
      (round : execute fuel context body middle = .done () last)
      (declares : Declares context name fuel (.loop condition body) last) :
      Declares context name (fuel + 1) (.loop condition body) state

/-- A run keeps what runs keep. A name is bound where it was bound before, and in the current scope if it
was declared. -/
structure State.AddsIf (declared : Prop) (name : Text) (before after : State) : Prop extends
    Kept before after where
  binds_iff : ∀ scope, (after.store.bindings scope).binds name = true ↔
    (before.store.bindings scope).binds name = true ∨ scope = before.current ∧ declared

namespace State

variable {declared declared' : Prop} {name : Text} {before middle after : State}

/-- Where the same names are bound none was declared. -/
theorem SameNames.addsIf (same : SameNames before after) (kept : Kept before after) :
    AddsIf False name before after where
  toKept := kept
  binds_iff scope := by rw [same scope name, and_false, or_false]

/-- A name is declared in one of two parts of a run. -/
theorem AddsIf.trans (first : AddsIf declared name before middle)
    (second : AddsIf declared' name middle after) :
    AddsIf (declared ∨ declared') name before after where
  toKept := first.toKept.trans second.toKept
  binds_iff scope := by
    rw [second.binds_iff, first.binds_iff, first.current, or_assoc, ← and_or_left]

/-- Whether a name was declared may be said in other words. -/
theorem AddsIf.congr (adds : AddsIf declared name before after) (same : declared ↔ declared') :
    AddsIf declared' name before after :=
  ⟨adds.toKept, fun scope => by rw [adds.binds_iff, same]⟩

/-- What declares nothing may come before. -/
theorem AddsIf.after_same (first : AddsIf False name before middle)
    (second : AddsIf declared name middle after) : AddsIf declared name before after :=
  (first.trans second).congr (by rw [false_or])

/-- A definition declares its name. -/
theorem addsIf_define (isThere : before.current < before.store.size) (found : Text) (cell : Cell) :
    AddsIf (found = name) name before
      { before with store := before.store.define before.current found cell } where
  toKept := kept_define before before.current found cell
  binds_iff scope := by
    rw [Store.bindings_define]
    by_cases isCurrent : before.current = scope
    · rw [if_pos ⟨isCurrent, isThere⟩, Bindings.binds_put, Bool.or_eq_true, decide_eq_true_eq, or_comm]
      exact or_congr_right ⟨fun isName => ⟨isCurrent.symm, isName.symm⟩, fun both => both.2.symm⟩
    · rw [if_neg fun same => isCurrent same.1]
      exact ⟨.inl, fun isBound => isBound.resolve_right fun both => isCurrent both.1.symm⟩

end State

/-- Operations declare nothing. -/
def declaringNothing (name : Text) : Upkeep where
  holds _ := True
  kept := AddsIf False name
  refl state := SameNames.addsIf (fun _ _ => rfl) (Kept.refl state)
  trans first second := first.after_same second
  quiet sameStore sameCurrent cells _ :=
    ⟨trivial, SameNames.addsIf (fun _ _ => by rw [sameStore])
      (kept_of_store_eq sameStore sameCurrent cells)⟩
  assign {state} {scope} {name} cell isResolved _ := by
    have same : SameNames state { state with store := state.store.define scope name cell } :=
      Store.binds_define_of_resolve isResolved cell
    exact ⟨trivial, same.addsIf (kept_define state scope name cell)⟩

section

variable {context : Context} {name : Text} {fuel : Nat} {state after : State} {node : Node}

/-- An expression declares nothing. -/
theorem keeps_evaluate : (declaringNothing name).Keeps (evaluate fuel context node) :=
  fun _ _ _ isAfter => ⟨trivial, (sameNames_evaluate isAfter).addsIf (kept_evaluate isAfter)⟩

/-- The first value of a variable is computed without declarations. -/
theorem keeps_initialValue : (declaringNothing name).Keeps (initialValue fuel context node) := by
  cases node with
  | null => exact Upkeep.keeps_pure _
  | _ => exact keeps_evaluate

/-- A condition declares nothing. -/
theorem keeps_testCondition (introduction : Text) :
    (declaringNothing name).Keeps (testCondition fuel context introduction node) :=
  keeps_evaluate.bind fun _ =>
    ((declaringNothing name).keeps_trace context 3 _).bind fun _ => Upkeep.keeps_pure _

/-- A step after one that declares nothing declares what both declare. -/
theorem addsIf_bind {α β : Type} {step : Exec α} {next : α → Exec β} {declared : Prop}
    (keeps : (declaringNothing name).Keeps step)
    (notReached : (∀ value middle, step state ≠ .done value middle) → ¬declared)
    (follow : ∀ value middle, step state = .done value middle → Kept state middle →
      after ∈ (next value middle).last → AddsIf declared name middle after)
    (isAfter : after ∈ ((step >>= next) state).last) : AddsIf declared name state after := by
  obtain ⟨isAfter, isNotDone⟩ | ⟨value, middle, isDone, isAfter⟩ := Exec.cases_last_bind isAfter
  · exact (keeps state trivial after isAfter).2.congr (iff_of_false id (notReached isNotDone))
  · have first := (keeps state trivial middle (Outcome.mem_last isDone)).2
    exact first.after_same (follow value middle isDone first.toKept isAfter)

/-- A definition and its trace declare the name. -/
theorem addsIf_declare {found : Text} {cell : Cell} {line : Text}
    (isThere : state.current < state.store.size)
    (isAfter : after ∈ ((Exec.define found cell >>= fun _ => context.trace 2 line) state).last) :
    AddsIf (found = name) name state after := by
  obtain ⟨-, isNotDone⟩ | ⟨_, middle, isDefined, isAfter⟩ := Exec.cases_last_bind isAfter
  · exact absurd rfl (isNotDone () _)
  · cases isDefined
    have traced := ((declaringNothing name).keeps_trace context 2 line _ trivial after isAfter).2
    exact ((addsIf_define isThere found cell).trans traced).congr (by rw [or_false])

/-- A variable is defined once its first value is there. -/
theorem execute_var (token : Token) (initializer : Node) :
    execute (fuel + 1) context (.var token initializer) =
      initialValue fuel context initializer >>= fun cell => Exec.define token.text cell >>= fun _ =>
        context.trace 2 (("declare " : Text) ++ token.text ++ " = " ++ cell.value.described) := by
  cases initializer <;> rfl

/-- A condition leads to one of two branches. -/
theorem execute_conditional (condition thenBranch elseBranch : Node) :
    execute (fuel + 1) context (.conditional condition thenBranch elseBranch) =
      testCondition fuel context "if condition -> " condition >>= fun holds =>
        if holds then execute fuel context thenBranch
        else
          match elseBranch with
          | .null => pure ()
          | alternative => execute fuel context alternative := by
  cases elseBranch <;> simp only [execute, testCondition, bind_assoc, pure_bind]

/-- A loop goes on after a round if its condition holds. -/
theorem execute_loop (condition body : Node) :
    execute (fuel + 1) context (.loop condition body) =
      testCondition fuel context "while condition -> " condition >>= fun holds =>
        if holds then do
          execute fuel context body
          execute fuel context (.loop condition body)
        else pure () := by
  simp only [execute, testCondition, bind_assoc, pure_bind]

/-- After a statement that declares nothing of its own names are bound where they were bound before. -/
theorem addsIf_of_undeclaring (undeclaring : node.Undeclaring)
    (notDeclared : ¬Declares context name fuel node state)
    (isAfter : after ∈ (execute fuel context node state).last) :
    AddsIf (Declares context name fuel node state) name state after :=
  ((sameNames_execute undeclaring isAfter).addsIf (kept_execute isAfter)).congr
    (iff_of_false id notDeclared)

/-- A condition declares what the branch declares that it leads to. -/
theorem declares_conditional_iff {condition thenBranch elseBranch : Node} {holds : Bool} {middle : State}
    (tested : testCondition fuel context "if condition -> " condition state = .done holds middle) :
    Declares context name fuel (if holds then thenBranch else elseBranch) middle ↔
      Declares context name (fuel + 1) (.conditional condition thenBranch elseBranch) state := by
  constructor
  · intro declares
    cases holds with
    | true => exact .thenBranch tested declares
    | false => exact .elseBranch tested declares
  · rintro (_ | _ | ⟨tested', declares⟩ | ⟨tested', declares⟩)
    all_goals
      cases tested.symm.trans tested'
      exact declares

/-- A loop that goes on declares what its body declares, and what it declares after a round. -/
theorem declares_loop_iff {condition body : Node} {middle : State}
    (tested : testCondition fuel context "while condition -> " condition state = .done true middle) :
    (Declares context name fuel body middle ∨ ∃ last, execute fuel context body middle = .done () last ∧
        Declares context name fuel (.loop condition body) last) ↔
      Declares context name (fuel + 1) (.loop condition body) state := by
  constructor
  · rintro (declares | ⟨last, round, declares⟩)
    · exact .firstRound tested declares
    · exact .laterRound tested round declares
  · intro declares
    cases declares with
    | firstRound tested' declares =>
      cases tested.symm.trans tested'
      exact .inl declares
    | laterRound tested' round declares =>
      cases tested.symm.trans tested'
      exact .inr ⟨_, round, declares⟩

/-- After an execution a name is bound where it was bound before, and in the current scope if it was
declared. -/
theorem addsIf_execute (isThere : state.current < state.store.size)
    (isAfter : after ∈ (execute fuel context node state).last) :
    AddsIf (Declares context name fuel node state) name state after := by
  induction fuel generalizing node state after with
  | zero => exact nomatch isAfter
  | succ fuel ih =>
    have isThere' {middle : State} (kept : Kept state middle) : middle.current < middle.store.size := by
      rw [kept.current, kept.size]
      exact isThere
    cases node with
    | var token initializer =>
      rw [execute_var] at isAfter
      refine addsIf_bind keeps_initialValue (fun notThere declares => ?_)
        (fun cell middle isDone kept isAfter => ?_) isAfter
      · cases declares with
        | var _ isDone => exact notThere _ _ isDone
      · refine (addsIf_declare (isThere' kept) isAfter).congr ⟨fun isName => .var isName isDone, ?_⟩
        rintro ⟨isName, _⟩
        exact isName
    | function token parameters body =>
      refine addsIf_bind (Upkeep.keeps_newCell _) (fun notThere _ => notThere _ _ rfl)
        (fun cell middle _ kept isAfter => ?_) isAfter
      refine (addsIf_declare (isThere' kept) isAfter).congr ⟨.function, ?_⟩
      rintro ⟨⟩
      assumption
    | conditional condition thenBranch elseBranch =>
      rw [execute_conditional] at isAfter
      refine addsIf_bind (keeps_testCondition _) (fun notTested declares => ?_)
        (fun holds middle tested kept isAfter => ?_) isAfter
      · cases declares with
        | thenBranch tested | elseBranch tested => exact notTested _ _ tested
      · refine AddsIf.congr ?_ (declares_conditional_iff tested)
        cases holds with
        | true => exact ih (isThere' kept) isAfter
        | false =>
          cases elseBranch with
          | null =>
            obtain rfl := List.mem_singleton.mp isAfter
            exact ((declaringNothing name).refl after).congr (iff_of_false id nofun)
          | _ => exact ih (isThere' kept) isAfter
    | loop condition body =>
      rw [execute_loop] at isAfter
      refine addsIf_bind (keeps_testCondition _) (fun notTested declares => ?_)
        (fun holds middle tested kept isAfter => ?_) isAfter
      · cases declares with
        | firstRound tested | laterRound tested => exact notTested _ _ tested
      · cases holds with
        | true =>
          refine AddsIf.congr ?_ (declares_loop_iff tested)
          obtain ⟨isAfter, notDone⟩ | ⟨_, last, round, isAfter⟩ := Exec.cases_last_bind isAfter
          · -- The loop ends in a round that fails, with what the body has declared until then.
            refine (ih (isThere' kept) isAfter).congr (or_iff_left ?_).symm
            exact fun ⟨last, round, _⟩ => notDone () last round
          · have first := ih (isThere' kept) (Outcome.mem_last round)
            have later := ih (isThere' (kept.trans first.toKept)) isAfter
            refine (first.trans later).congr (or_congr_right ?_)
            refine ⟨fun declares => ⟨last, round, declares⟩, fun ⟨last', round', declares⟩ => ?_⟩
            cases round.symm.trans round'
            exact declares
        | false =>
          obtain rfl := List.mem_singleton.mp isAfter
          refine ((declaringNothing name).refl after).congr (iff_of_false id fun declares => ?_)
          cases declares with
          | firstRound tested' | laterRound tested' => cases tested.symm.trans tested'
    | _ => exact addsIf_of_undeclaring trivial nofun isAfter

/-- There are no bindings if no name is bound. -/
theorem Bindings.eq_nil_iff (bindings : Bindings) :
    bindings = [] ↔ ∀ name, ¬bindings.binds name = true := by
  cases bindings with
  | nil => simp [binds, get?]
  | cons binding rest =>
    refine ⟨nofun, fun notBound => absurd ?_ (notBound binding.1)⟩
    simp [binds, get?]

/-- Where the same names are bound an empty scope is empty. -/
theorem State.SameNames.bindings_eq_nil {before : State} {scope : ScopeId} (same : SameNames before after)
    (isEmpty : before.store.bindings scope = []) : after.store.bindings scope = [] := by
  rw [Bindings.eq_nil_iff] at isEmpty ⊢
  intro name
  rw [same]
  exact isEmpty name

/-- An empty scope is empty after an execution unless it is the current one and some name was declared. -/
theorem bindings_eq_nil_iff {scope : ScopeId} (isThere : state.current < state.store.size)
    (isAfter : after ∈ (execute fuel context node state).last)
    (isEmpty : state.store.bindings scope = []) :
    after.store.bindings scope = [] ↔
      ¬(scope = state.current ∧ ∃ name, Declares context name fuel node state) := by
  rw [Bindings.eq_nil_iff, ← exists_and_left, not_exists]
  refine forall_congr' fun name => not_congr ?_
  rw [(addsIf_execute isThere isAfter).binds_iff]
  exact or_iff_right ((Bindings.eq_nil_iff _).mp isEmpty name)

end

end Lox
