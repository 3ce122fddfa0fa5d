import Lox.Execution.Session
import Lox.Proofs.Execution.Comparison

/-!
# Tracing only observes

A run is traced at a level, into a trace that takes any text. The level decides which of the lines of
a run are added to the trace and nothing else: the run ends in the same way with the same output and
the same bindings at every level.

Every line of a run has a level of its own, from one for the first and the last line to three for
conditions. So a higher level leaves out fewer lines, and from three on it leaves out none.
-/

namespace Lox

open Likeness

/-- The context that traces at a level, into a trace that takes any text. -/
def Context.traced (context : Context) (level : Nat) : Context :=
  { context with debugLevel := level, traceStored := false }

/-- The lines that are traced at a level, of lines that each have one. -/
def visible (level : Nat) (lines : List (Nat × Text)) : List Text :=
  (lines.filter fun line => line.1 ≤ level).map Prod.snd

/-- Lines that follow one another are traced one after another. -/
theorem visible_append (level : Nat) (lines more : List (Nat × Text)) :
    visible level (lines ++ more) = visible level lines ++ visible level more := by
  rw [visible, List.filter_append, List.map_append]
  rfl

/-- A single line is traced if its level is low enough. -/
theorem visible_singleton (level own : Nat) (line : Text) :
    visible level [(own, line)] = if own ≤ level then [line] else [] := by
  unfold visible
  by_cases enough : own ≤ level <;> simp [enough]

/-- A lower level leaves out more lines. -/
theorem visible_sublist {level level' : Nat} (isLower : level ≤ level')
    (lines : List (Nat × Text)) : (visible level lines).Sublist (visible level' lines) := by
  refine List.Sublist.map _ (List.monotone_filter_right lines fun line enough => ?_)
  simp only [decide_eq_true_eq] at enough ⊢
  exact Nat.le_trans enough isLower

/-- A level that no line is above leaves out nothing. -/
theorem visible_of_le {level : Nat} {lines : List (Nat × Text)}
    (enough : ∀ line ∈ lines, line.1 ≤ level) : visible level lines = lines.map Prod.snd := by
  unfold visible
  rw [List.filter_eq_self.mpr fun line isLine => decide_eq_true (enough line isLine)]

/-- A level that all lines are above leaves out everything. -/
theorem visible_of_lt {level : Nat} {lines : List (Nat × Text)}
    (above : ∀ line ∈ lines, level < line.1) : visible level lines = [] := by
  unfold visible
  rw [List.filter_eq_nil_iff.mpr fun line isLine => by simpa using above line isLine]
  rfl

/-- A line that may stand between the first and the last one of a run. -/
structure IsInner (level : Nat) (line : Text) : Prop where
  above : 1 < level
  bounded : level ≤ 3
  head : line.head? ≠ some (.char 'r')

/-- The traces of two runs at two levels: what was there, and what each level leaves of the same
lines. -/
def TracedBeside (before : List Text) (first : Nat × Text) (level level' : Nat)
    (left right : Array Text) : Prop :=
  ∃ inner, (∀ line ∈ inner, IsInner line.1 line.2) ∧
    left.toList = before ++ visible level (first :: inner) ∧
    right.toList = before ++ visible level' (first :: inner)

/-- One run beside itself at two levels. -/
def levelLikeness (before : List Text) (first : Nat × Text) (level level' : Nat) : Likeness where
  tokens _ token token' := token' = token
  kind_eq same := congrArg Token.kind same.symm
  lexeme_eq same := congrArg Token.lexeme same.symm
  strays := True
  hosted := True
  traces := TracedBeside before first level level'

/-- The lines between the first and the last one are no first or last line. -/
theorem isInner_of_traced {runs : Runs} {level : Nat} {line : Text}
    (traced : runs.Traced level line) : IsInner level line := by
  refine ⟨?_, ?_, ?_⟩
  · cases traced <;> decide
  · cases traced <;> decide
  · cases traced <;> simp [Text.ofString, Text.ofChars]

/-- Tracing into a trace that takes any text adds the line or does nothing. -/
theorem Context.traced_trace (context : Context) (level own : Nat) (line : Text) (state : State) :
    ∃ after : State, (context.traced level).trace own line state = .done () after ∧
      after = { state with trace := after.trace } ∧
      after.trace.toList = state.trace.toList ++ visible level [(own, line)] := by
  rw [visible_singleton]
  unfold Context.trace
  by_cases enough : own ≤ (context.traced level).debugLevel
  · have isVisible : own ≤ level := enough
    rw [if_pos enough, if_pos isVisible]
    exact ⟨_, rfl, rfl, Array.toList_push⟩
  · have isHidden : ¬own ≤ level := enough
    rw [if_neg enough, if_neg isHidden]
    exact ⟨state, rfl, rfl, (List.append_nil _).symm⟩

/-- One run beside itself at two levels. -/
def levelComparison (before : List Text) (first : Nat × Text) (context : Context)
    (level level' : Nat) : Comparison where
  toLikeness := levelLikeness before first level level'
  first := context.traced level
  second := context.traced level'
  now_eq := rfl
  host_eq := rfl
  trace {own line} traced left right states := by
    obtain ⟨after, isAfter, same, lines⟩ := context.traced_trace level own line left
    obtain ⟨after', isAfter', same', lines'⟩ := context.traced_trace level' own line right
    obtain ⟨inner, areInner, isLeft, isRight⟩ := states.traces
    have traces : TracedBeside before first level level' after.trace after'.trace := by
      refine ⟨inner ++ [(own, line)], ?_, ?_, ?_⟩
      · intro found isFound
        obtain isOld | isNew := List.mem_append.mp isFound
        · exact areInner found isOld
        · rw [List.mem_singleton.mp isNew]
          exact isInner_of_traced traced
      · rw [lines, isLeft, List.append_assoc, ← visible_append, List.cons_append]
      · rw [lines', isRight, List.append_assoc, ← visible_append, List.cons_append]
    rw [isAfter, isAfter', same, same']
    exact .done { states with traces := traces } trivial

/-- The line that a run ends with. -/
def Outcome.lastLine? {α : Type} : Outcome α → Option Text
  | .done _ _ => some "run finished"
  | .failed fault _ => some (("runtime error: " : Text) ++ fault.message)
  | .unfinished => none

/-- Two runs that ended alike at two levels: in states that differ only in what each level leaves of
the same lines. -/
structure EndedBeside (program : Program) (start : State) (level level' : Nat)
    (outcome outcome' : Outcome Unit) (left right : State) : Prop where
  ends : outcome = .done () left ∧ outcome' = .done () right ∨
    ∃ fault, outcome = .failed fault left ∧ outcome' = .failed fault right
  same : right = { left with trace := right.trace }
  lines : ∃ inner last, (∀ line ∈ inner, IsInner line.1 line.2) ∧ outcome.lastLine? = some last ∧
    left.trace.toList =
      start.trace.toList ++ visible level ((1, program.firstLine) :: inner ++ [(1, last)]) ∧
    right.trace.toList =
      start.trace.toList ++ visible level' ((1, program.firstLine) :: inner ++ [(1, last)])

/-- Runs at two levels that ended alike have done so with their last lines as well. -/
theorem endedBeside_of_states {program : Program} {start left right left' right' : State}
    {level level' : Nat} {outcome outcome' : Outcome Unit} {last : Text}
    (states : (levelLikeness start.trace.toList (1, program.firstLine) level level').States left right)
    (isLast : outcome.lastLine? = some last)
    (same : left' = { left with trace := left'.trace })
    (same' : right' = { right with trace := right'.trace })
    (lines : left'.trace.toList = left.trace.toList ++ visible level [(1, last)])
    (lines' : right'.trace.toList = right.trace.toList ++ visible level' [(1, last)])
    (ends : outcome = .done () left' ∧ outcome' = .done () right' ∨
      ∃ fault, outcome = .failed fault left' ∧ outcome' = .failed fault right') :
    EndedBeside program start level level' outcome outcome' left' right' := by
  obtain ⟨inner, areInner, isLeft, isRight⟩ := states.traces
  refine ⟨ends, ?_, inner, last, areInner, isLast, ?_, ?_⟩
  · have onlySame : (levelLikeness start.trace.toList (1, program.firstLine) level level').OnlySame :=
      fun _ _ _ same => same
    rw [same', states.eq onlySame, same]
  · rw [lines, isLeft, visible_append, List.append_assoc]
  · rw [lines', isRight, visible_append, List.append_assoc]

/-- A program runs alike at two levels. -/
theorem Program.run_traced (program : Program) (fuel : Nat) (context : Context) (start : State)
    (level level' : Nat) :
    let outcome := program.run fuel (context.traced level) start
    let outcome' := program.run fuel (context.traced level') start
    outcome = .unfinished ∧ outcome' = .unfinished ∨
      ∃ left right, EndedBeside program start level level' outcome outcome' left right := by
  obtain ⟨begun, isBegun, same, lines⟩ :=
    context.traced_trace level 1 program.firstLine start
  obtain ⟨begun', isBegun', same', lines'⟩ :=
    context.traced_trace level' 1 program.firstLine start
  let comparison := levelComparison start.trace.toList (1, program.firstLine) context level level'
  have self : ∀ role token, comparison.tokens role token token := fun _ _ => rfl
  have matched : List.Forall₂ (Node.Matched comparison.toMatching) program program :=
    Node.matchedOfList_self fun role token _ => self role token
  have isStart : comparison.States begun begun' := by
    rw [same, same']
    exact ⟨stores_self trivial trivial fun role token _ => self role token, rfl, rfl, rfl,
      [], nofun, lines, lines'⟩
  have ends := (comparison.alike fuel).statements context.callsLeft matched (.inl trivial) begun begun'
    isStart
  rw [program.run_of_begun fuel isBegun, program.run_of_begun fuel isBegun']
  change comparison.Ends Runs.anything (program.forM (execute fuel (context.traced level)) begun)
    (program.forM (execute fuel (context.traced level')) begun') at ends
  generalize program.forM (execute fuel (context.traced level)) begun = outcome at ends ⊢
  generalize program.forM (execute fuel (context.traced level')) begun' = outcome' at ends ⊢
  cases ends with
  | unfinished => exact .inl ⟨rfl, rfl⟩
  | @done _ _ left right states _ =>
    obtain ⟨last, isLast, same, lines⟩ := context.traced_trace level 1 "run finished" left
    obtain ⟨last', isLast', same', lines'⟩ := context.traced_trace level' 1 "run finished" right
    dsimp only
    rw [isLast, isLast']
    exact .inr ⟨last, last',
      endedBeside_of_states states rfl same same' lines lines' (.inl ⟨rfl, rfl⟩)⟩
  | @failed _ fault left right states raised =>
    obtain rfl := raised.eq fun _ _ _ same => same
    let line : Text := ("runtime error: " : Text) ++ fault.message
    obtain ⟨last, isLast, same, lines⟩ := context.traced_trace level 1 line left
    obtain ⟨last', isLast', same', lines'⟩ := context.traced_trace level' 1 line right
    dsimp only
    rw [isLast, isLast']
    exact .inr ⟨last, last',
      endedBeside_of_states states rfl same same' lines lines' (.inr ⟨fault, rfl, rfl⟩)⟩

/-- The outcome with nothing in its trace. -/
def Outcome.untraced {α : Type} : Outcome α → Outcome α
  | .done result after => .done result { after with trace := #[] }
  | .failed fault after => .failed fault { after with trace := #[] }
  | .unfinished => .unfinished

/-- The lines that an outcome has added to the trace of a state. -/
def Outcome.linesSince {α : Type} (start : State) : Outcome α → List Text
  | .done _ after | .failed _ after => after.trace.toList.drop start.trace.size
  | .unfinished => []

/-- A line that only ends a run. -/
def IsLastLine (line : Text) : Prop :=
  line = "run finished" ∨ ∃ fault : Fault, line = ("runtime error: " : Text) ++ fault.message

/-- No first line is a last line. -/
theorem Program.not_isLastLine_firstLine (program : Program) : ¬IsLastLine program.firstLine := by
  rintro (isFinished | ⟨fault, isError⟩)
  · -- Both begin alike, but only the last line of a run ends in a letter.
    have last := congrArg List.getLast? isFinished
    rw [firstLine, List.getLast?_append] at last
    simp [Text.ofString, Text.ofChars] at last
  · -- One goes on with a blank and the other with a letter.
    have fourth := congrArg (·[3]?) isError
    simp [firstLine, Text.ofString, Text.ofChars] at fourth

/-- No line between the first and the last one is a last line. -/
theorem IsInner.not_isLastLine {level : Nat} {line : Text} (isInner : IsInner level line) :
    ¬IsLastLine line := by
  rintro (rfl | ⟨fault, rfl⟩)
  · exact isInner.head rfl
  · exact isInner.head rfl

namespace EndedBeside

variable {program : Program} {start left right : State} {level level' : Nat}
  {outcome outcome' : Outcome Unit}

/-- Runs that ended alike differ in their traces only. -/
theorem untraced_eq (beside : EndedBeside program start level level' outcome outcome' left right) :
    outcome.untraced = outcome'.untraced := by
  obtain ⟨isDone, isDone'⟩ | ⟨fault, isFailed, isFailed'⟩ := beside.ends
  · rw [isDone, isDone', beside.same]
    rfl
  · rw [isFailed, isFailed', beside.same]
    rfl

/-- Runs that ended alike have added to the trace what each level leaves of the same lines. -/
theorem linesSince_eq (beside : EndedBeside program start level level' outcome outcome' left right) :
    ∃ inner last, (∀ line ∈ inner, IsInner line.1 line.2) ∧ outcome.lastLine? = some last ∧
      outcome.linesSince start = visible level ((1, program.firstLine) :: inner ++ [(1, last)]) ∧
      outcome'.linesSince start = visible level' ((1, program.firstLine) :: inner ++ [(1, last)]) := by
  obtain ⟨inner, last, areInner, isLast, isLeft, isRight⟩ := beside.lines
  refine ⟨inner, last, areInner, isLast, ?_, ?_⟩
  · have since : outcome.linesSince start = left.trace.toList.drop start.trace.size := by
      obtain ⟨isDone, -⟩ | ⟨fault, isFailed, -⟩ := beside.ends
      · rw [isDone]; rfl
      · rw [isFailed]; rfl
    rw [since, isLeft, ← Array.length_toList, List.drop_left]
  · have since : outcome'.linesSince start = right.trace.toList.drop start.trace.size := by
      obtain ⟨-, isDone⟩ | ⟨fault, -, isFailed⟩ := beside.ends
      · rw [isDone]; rfl
      · rw [isFailed]; rfl
    rw [since, isRight, ← Array.length_toList, List.drop_left]

/-- Runs that ended alike are the same if their levels leave the same lines. -/
theorem eq_of_visible (beside : EndedBeside program start level level' outcome outcome' left right)
    (same : ∀ lines : List (Nat × Text), (∀ line ∈ lines, line.1 ≤ 3) →
      visible level lines = visible level' lines) : outcome = outcome' := by
  obtain ⟨inner, last, areInner, -, isLeft, isRight⟩ := beside.lines
  have bounded : ∀ line ∈ (1, program.firstLine) :: inner ++ [(1, last)], line.1 ≤ 3 := by
    have areBounded : ∀ line ∈ inner, line.1 ≤ 3 := fun line isLine => (areInner line isLine).bounded
    simpa [or_imp, forall_and] using areBounded
  have trace : left.trace = right.trace := by
    rw [← Array.toList_inj, isLeft, isRight, same _ bounded]
  have whole : right = left := by rw [beside.same, ← trace]
  obtain ⟨isDone, isDone'⟩ | ⟨fault, isFailed, isFailed'⟩ := beside.ends
  · rw [isDone, isDone', whole]
  · rw [isFailed, isFailed', whole]

end EndedBeside

/-- At two levels a run ends in the same way, with the same output and the same bindings, and the
lower level traces some of the lines that the higher one traces. Level zero traces nothing, and levels
from three on trace the same. From level one on the trace of a run that ended begins with the number of
statements and ends with how the run did, and nothing before its last line says that a run ended. -/
theorem tracing_only_observes (program : Program) (fuel : Nat) (context : Context) (start : State)
    {level level' : Nat} (isLower : level ≤ level') :
    let run level := program.run fuel (context.traced level) start
    (run level).untraced = (run level').untraced ∧
    ((run level).linesSince start).Sublist ((run level').linesSince start) ∧
    (run 0).linesSince start = [] ∧
    (3 ≤ level → run level = run level') ∧
    (1 ≤ level → ∀ last ∈ (run level).lastLine?, ∃ inner,
      (run level).linesSince start = program.firstLine :: inner ++ [last] ∧
      ∀ line ∈ program.firstLine :: inner, ¬IsLastLine line) := by
  intro run
  have atZero : (run 0).linesSince start = [] := by
    obtain ⟨isUnfinished, -⟩ | ⟨left, right, beside⟩ := program.run_traced fuel context start 0 0
    · exact congrArg (Outcome.linesSince start) isUnfinished
    · obtain ⟨inner, last, areInner, -, lines, -⟩ := beside.linesSince_eq
      have above : ∀ line ∈ inner, 0 < line.1 := fun line isLine =>
        Nat.lt_of_succ_lt (areInner line isLine).above
      exact lines.trans (visible_of_lt (by simpa [or_imp, forall_and] using above))
  obtain ⟨isUnfinished, isUnfinished'⟩ | ⟨left, right, beside⟩ :=
    program.run_traced fuel context start level level'
  · have isLeft : run level = .unfinished := isUnfinished
    have isRight : run level' = .unfinished := isUnfinished'
    rw [isLeft, isRight]
    exact ⟨rfl, List.Sublist.refl _, atZero, fun _ => rfl, fun _ _ isLast => absurd isLast (Option.not_mem_none _)⟩
  · obtain ⟨inner, last, areInner, isLast, lines, lines'⟩ := beside.linesSince_eq
    have isLeft : (run level).linesSince start = _ := lines
    have isRight : (run level').linesSince start = _ := lines'
    refine ⟨beside.untraced_eq, ?_, atZero, fun many => beside.eq_of_visible ?_, ?_⟩
    · rw [isLeft, isRight]
      exact visible_sublist isLower _
    · intro lines bounded
      rw [visible_of_le fun line isLine => Nat.le_trans (bounded line isLine) many,
        visible_of_le fun line isLine =>
          Nat.le_trans (bounded line isLine) (Nat.le_trans many isLower)]
    · intro positive found isFound
      obtain rfl : last = found := Option.some.inj (isLast.symm.trans isFound)
      refine ⟨visible level inner, ?_, ?_⟩
      · rw [isLeft, visible_append, visible_singleton, if_pos positive]
        have first : visible level ((1, program.firstLine) :: inner) =
            program.firstLine :: visible level inner := by
          change visible level ([(1, program.firstLine)] ++ inner) = _
          rw [visible_append, visible_singleton, if_pos positive]
          rfl
        rw [first]
      · intro line isLine
        obtain isFirst | isLater := List.mem_cons.mp isLine
        · rw [isFirst]
          exact program.not_isLastLine_firstLine
        · obtain ⟨found, isFound, rfl⟩ := List.mem_map.mp isLater
          exact (areInner found (List.mem_of_mem_filter isFound)).not_isLastLine

/-- A conditional that fails to negate nil. -/
def negatesConditionally : Program :=
  [.conditional (.literal (.bool true))
    (.expression (.unary ⟨.minus, ['-'.toUInt8], 1⟩ (.literal .nil))) .null]

/-- The condition of a conditional is traced at level three and not at level one. Nothing else differs
between the two runs. -/
theorem condition_traced_at_three :
    let run level := negatesConditionally.run 5
      ((Session.start 0 (Number.zero false)).context.traced level) State.blank
    (run 1).linesSince State.blank =
      ["run 1 statement(s)", "runtime error: line 1: Operand must be a number."] ∧
    (run 3).linesSince State.blank =
      ["run 1 statement(s)", "if condition -> True",
        "runtime error: line 1: Operand must be a number."] ∧
    ((run 1).linesSince State.blank).Sublist ((run 3).linesSince State.blank) ∧
    (run 1).untraced = (run 3).untraced := by
  have observes := tracing_only_observes negatesConditionally 5
    (Session.start 0 (Number.zero false)).context State.blank (by decide : 1 ≤ 3)
  exact ⟨rfl, rfl, observes.2.1, observes.1⟩

end Lox
