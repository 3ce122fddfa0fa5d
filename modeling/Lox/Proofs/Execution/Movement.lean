import Lox.Proofs.Execution.Comparison

/-!
# Moving the lines of a run

Without a trace, a run needs the lines of tokens only to report errors. So if all lines are moved, those
of the program as well as those of the functions that names stand for, the run is the same with its lines
moved: the functions that it leaves behind are, and so is the line of an error.

Nothing is asked of how lines are moved. Different lines may fall together, or be kept apart by numbers
that tell more than a line.
-/

namespace Lox

/-- The token on the line that its own one is moved to. -/
def Token.moved (move : Int → Int) (token : Token) : Token :=
  { token with line := move token.line }

/-- The program with the lines of its tokens moved. -/
def Program.moved (move : Int → Int) (program : Program) : Program :=
  Node.mapTokensOfList (Token.moved move) program

/-- The state with the lines of the functions in it moved. -/
def State.moved (move : Int → Int) (state : State) : State :=
  { state with store := state.store.mapTokens (Token.moved move) }

/-- The fault with its line moved. The errors of a host are at no line and stay there. -/
def Fault.moved (move : Int → Int) : Fault → Fault
  | .runtime ⟨.hostFailure text, line⟩ => .runtime ⟨.hostFailure text, line⟩
  | .runtime ⟨cause, line⟩ => .runtime ⟨cause, move line⟩
  | .defect (.unsupportedUnary operator) => .defect (.unsupportedUnary (operator.moved move))
  | .defect (.unknownOperator operator) => .defect (.unknownOperator (operator.moved move))
  | .defect other => .defect other

/-- How a run ends, with the lines moved. -/
def Outcome.moved {α : Type} (move : Int → Int) : Outcome α → Outcome α
  | .done result state => .done result (state.moved move)
  | .failed fault state => .failed (fault.moved move) (state.moved move)
  | .unfinished => .unfinished

section

variable (first second : Int → Int)

/-- The lines of programs one behind the other are moved together. -/
theorem Program.moved_flatten (move : Int → Int) (programs : List Program) :
    Program.moved move programs.flatten = (programs.map (Program.moved move)).flatten := by
  have isMap : Program.moved move = List.map (Node.mapTokens (Token.moved move)) :=
    funext (Node.mapTokensOfList_eq_map _)
  rw [isMap, List.map_flatten]

/-- Moving the lines of a program twice is moving them by both moves. -/
theorem Program.moved_moved (program : Program) :
    (program.moved first).moved second = program.moved (second ∘ first) :=
  Node.mapTokensOfList_mapTokensOfList _ _ program

/-- A program whose lines are left where they are. -/
theorem Program.moved_id (program : Program) : program.moved id = program :=
  Node.mapTokensOfList_id program

/-- Moving the lines of a state twice is moving them by both moves. -/
theorem State.moved_moved (state : State) :
    (state.moved first).moved second = state.moved (second ∘ first) :=
  congrArg (fun store => ({ state with store } : State)) (state.store.mapTokens_mapTokens _ _)

/-- A state whose lines are left where they are. -/
theorem State.moved_id (state : State) : state.moved id = state :=
  congrArg (fun store => ({ state with store } : State)) state.store.mapTokens_id

end

section

variable {context : Context} (isQuiet : context.debugLevel = 0)

include isQuiet

/-- Nothing is traced at level zero. -/
theorem Context.trace_of_quiet {level : Nat} (positive : 0 < level) (line : Text) :
    context.trace level line = pure () :=
  if_neg (by rw [isQuiet]; exact Nat.not_le_of_gt positive)

/-- Without a trace a run is that of the statements. -/
theorem Program.run_of_quiet (fuel : Nat) (program : Program) :
    program.run fuel context = program.forM (execute fuel context) := by
  have untraced (line : Text) := context.trace_of_quiet isQuiet Nat.one_pos line
  funext state
  rw [program.run_of_begun fuel (congrFun (untraced _) state)]
  cases program.forM (execute fuel context) state with
  | done _ after => exact congrFun (untraced _) after
  | failed fault after =>
    dsimp only
    rw [untraced]
    rfl
  | unfinished => rfl

end

/-- A run beside the one with its lines moved. -/
def movement (move : Int → Int) : Likeness where
  tokens _ token token' := token' = token.moved move
  kind_eq isMoved := by obtain rfl := isMoved; rfl
  lexeme_eq isMoved := by obtain rfl := isMoved; rfl
  strays := True
  hosted := True
  traces := Eq

/-- Both runs in one context without a trace. -/
def quietComparison (move : Int → Int) {context : Context} (isQuiet : context.debugLevel = 0) :
    Comparison :=
  (movement move).comparisonIn context fun {level line} traced => by
    have positive : 0 < level := by cases traced <;> decide
    rw [context.trace_of_quiet isQuiet positive]
    exact .pure trivial

section

variable {move : Int → Int}

/-- A state beside another one is that with its lines moved. -/
theorem State.eq_moved {left right : State} (alike : (movement move).States left right) :
    right = left.moved move := by
  have store : left.store.mapTokens (Token.moved move) = right.store.mapTokens id :=
    alike.store.mapTokens_eq fun _ _ _ isMoved => Eq.symm isMoved
  rw [Store.mapTokens_id] at store
  rw [State.moved, store, alike.current_eq, alike.nextCell_eq, alike.output_eq, alike.traces]

/-- A fault beside another one is that with its line moved. -/
theorem Fault.eq_moved {context : Context} (isQuiet : context.debugLevel = 0) {fault fault' : Fault}
    (raised : (quietComparison move isQuiet).Raised fault fault') : fault' = fault.moved move := by
  cases raised with
  | blamed isMoved blamed =>
    obtain rfl := isMoved
    cases blamed <;> rfl
  | unsupportedUnary _ isMoved | unknownOperator _ isMoved =>
    obtain rfl := isMoved
    rfl
  | host error => cases error <;> rfl
  | notStatement | notExpression | untraced => rfl

/-- A run with its lines moved ends as the run does, with the lines moved. -/
theorem Program.run_moved {context : Context} (isQuiet : context.debugLevel = 0) (fuel : Nat)
    (program : Program) (start : State) :
    Program.run fuel context (program.moved move) (start.moved move) =
      (program.run fuel context start).moved move := by
  have matched : List.Forall₂ (Node.Matched (movement move).toMatching) program (program.moved move) :=
    Node.matched_mapTokensOfList program fun _ _ _ => rfl
  have alike : (movement move).States start (start.moved move) :=
    ⟨Likeness.stores_mapTokens trivial trivial fun _ _ _ => rfl, rfl, rfl, rfl, rfl⟩
  have ends := ((quietComparison move isQuiet).alike fuel).statements context.callsLeft matched
    (.inl trivial) _ _ alike
  rw [Program.run_of_quiet isQuiet, Program.run_of_quiet isQuiet]
  change (quietComparison move isQuiet).Ends Runs.anything (program.forM (execute fuel context) start)
    ((program.moved move).forM (execute fuel context) (start.moved move)) at ends
  generalize program.forM (execute fuel context) start = outcome at ends ⊢
  generalize (program.moved move).forM (execute fuel context) (start.moved move) = outcome' at ends ⊢
  cases ends with
  | done states _ =>
    rw [State.eq_moved states]
    rfl
  | failed states raised =>
    rw [State.eq_moved states, Fault.eq_moved isQuiet raised]
    rfl
  | unfinished => rfl

end

end Lox
