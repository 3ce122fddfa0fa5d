import Lox.Execution.Session
import Lox.Proofs.Execution.Fuel
import Lox.Proofs.Execution.Upkeep

/-!
# How deep calls may nest

The bound on nested calls shows in nothing but an overflow. A run that ends without one ends in the same
state, with the same fault if any, wherever more calls may nest. A run that ends with one has printed what
a deeper run prints first, names a closing parenthesis of the program or of a function that was known, and
is back in the scope that it started from.
-/

namespace Lox

open Exec Footprint

/-- A run goes back to the scope that it started from. -/
theorem Program.kept_run {program : Program} {fuel : Nat} {context : Context} {state after : State}
    (isAfter : after ∈ (program.run fuel context state).last) : State.Kept state after :=
  have keeps : keptUpkeep.Keeps (program.run fuel context) := Upkeep.keeps_of_inStep fun state =>
    (keptSimulation context).run fuel context.callsLeft program state state
  (keeps state trivial after isAfter).2

/-- A leaf of a program, or of the body of a function that a global name stands for. -/
def Program.Reaches (program : Program) (state : State) (leaf : Leaf) : Prop :=
  leaf ∈ Node.leavesOfList program ∨
    ∃ name id declaration,
      (state.store.bindings globals).get? name = some ⟨id, .function declaration⟩ ∧
        leaf ∈ Node.leavesOfList declaration.body

/-- The footprint of runs at the global scope. They see that scope and their own. -/
def Program.reach (program : Program) (state : State) : Footprint where
  leaves := program.Reaches state
  seen scope := scope = globals ∨ state.store.size ≤ scope
  count := state.store.size
  seen_globals := .inl rfl
  seen_new _ := .inr

/-- A state at the global scope is confined to what can be reached from there. -/
theorem Program.confines_reach (program : Program) {state : State} (isGlobal : state.current = globals)
    (outermost : state.store.enclosing? globals = none) : (program.reach state).Confines state where
  count_le := Nat.le_refl _
  current := .inl isGlobal
  enclosing scope outer isSeen isEnclosed := by
    obtain rfl | isNew := isSeen
    · rw [outermost] at isEnclosed
      cases isEnclosed
    · rw [Store.enclosing?_of_size_le isNew] at isEnclosed
      cases isEnclosed
  value scope isSeen name cell isBound := by
    obtain rfl | isNew := isSeen
    · obtain ⟨id, value⟩ := cell
      cases value with
      | function declaration =>
        exact (Node.areWithin_iff_leaves _).mpr fun leaf isLeaf =>
          .inr ⟨name, id, declaration, isBound, isLeaf⟩
      | _ => trivial
    · rw [Store.bindings_of_size_le isNew] at isBound
      cases isBound

/-- What a run ends in, it ends in with more fuel. -/
theorem Program.mem_last_run {program : Program} {context : Context} {fuel fuel' : Nat}
    (enough : fuel ≤ fuel') {state last : State}
    (isLast : last ∈ (program.run fuel context state).last) :
    last ∈ (program.run fuel' context state).last := by
  have lags : Exec.Lags False (program.run fuel (context.allowing context.callsLeft))
      (program.run fuel' (context.allowing context.callsLeft)) :=
    program.lags_run context enough (.inl rfl)
  obtain isUnfinished | same := lags.approximates state
  · change last ∈ (program.run fuel (context.allowing context.callsLeft) state).last at isLast
    rw [isUnfinished] at isLast
    exact absurd isLast List.not_mem_nil
  · change last ∈ (program.run fuel' (context.allowing context.callsLeft) state).last
    rw [← same]
    exact isLast

/-- A run at the global scope ends confined to what can be reached from there. -/
theorem Program.ends_reach (program : Program) {state : State} (isGlobal : state.current = globals)
    (outermost : state.store.enclosing? globals = none) (fuel : Nat) (context : Context) :
    (program.reach state).Ends state anyResult (program.run fuel context state) :=
  have within : Node.AreWithin (program.reach state).leaves program :=
    (Node.areWithin_iff_leaves _).mpr fun _ => .inl
  Steps.run within fuel context state (program.confines_reach isGlobal outermost)

namespace Exec.Lag

variable {deeper : Prop} {outcome outcome' : Outcome Unit}

/-- What is ahead of an overflow has printed what was printed before it. -/
theorem prefix_of_overflow {line : Int} {after last : State}
    (lag : Lag deeper (.failed (.runtime ⟨.stackOverflow, line⟩) after) outcome')
    (isLast : last ∈ outcome'.last) : after.output.toList <+: last.output.toList := by
  cases lag with
  | overflow _ goesOn => exact goesOn last isLast
  | same => rw [List.mem_singleton.mp isLast]

/-- Any other end is that of what is ahead. -/
theorem eq_of_ended (lag : Lag deeper outcome outcome') (isOver : outcome ≠ .unfinished)
    (noOverflow : ∀ line after, outcome ≠ .failed (.runtime ⟨.stackOverflow, line⟩) after) :
    outcome' = outcome := by
  cases lag with
  | unfinished => exact absurd rfl isOver
  | overflow _ _ => exact absurd rfl (noOverflow _ _)
  | same => rfl

end Exec.Lag

/-- Of two runs at the global scope let the second one allow calls to nest no less deep. If the first run
ends without an overflow, the second one ends as it does, given as much fuel. If the first run ends with
an overflow, its output is what the second one prints first, whenever that one ends. The overflow has the
line of a closing parenthesis of the program or of a function that a global name stood for, and the scope
is the one that the run started from. -/
theorem depth_shows_in_overflows_only (program : Program) {state : State}
    (isGlobal : state.current = globals) (outermost : state.store.enclosing? globals = none)
    (context : Context) {calls more : Nat} (isMore : calls ≤ more) (fuel : Nat) :
    match program.run fuel (context.allowing calls) state with
    | .unfinished => True
    | .failed (.runtime ⟨.stackOverflow, line⟩) after =>
      (∀ fuel', ∀ last ∈ (program.run fuel' (context.allowing more) state).last,
        ∃ lines, last.output = after.output ++ lines) ∧
      (∃ paren, program.Reaches state (.token .closing paren) ∧ paren.line = line) ∧
      after.current = state.current
    | outcome =>
      ∀ fuel', fuel ≤ fuel' → program.run fuel' (context.allowing more) state = outcome := by
  have allows : Allows True calls more := .inr ⟨trivial, isMore⟩
  have lag (fuel' : Nat) (enough : fuel ≤ fuel') := (program.lags_run context enough allows).lag state
  have ends := program.ends_reach isGlobal outermost fuel (context.allowing calls)
  have kept (after : State) (isAfter : after ∈ (program.run fuel (context.allowing calls) state).last) :
      State.Kept state after := program.kept_run isAfter
  generalize program.run fuel (context.allowing calls) state = outcome at lag ends kept ⊢
  split
  · trivial
  · next line after =>
    refine ⟨fun fuel' last isLast => ?_, ?_, (kept after (List.mem_singleton_self after)).current⟩
    · obtain ⟨lines, same⟩ := (lag _ (Nat.le_max_left fuel fuel')).prefix_of_overflow
        (program.mem_last_run (Nat.le_max_right fuel fuel') isLast)
      exact ⟨lines.toArray, Array.ext' (by rw [← same, Array.toList_append])⟩
    · cases ends with
      | failed _ _ raises => exact raises line rfl
  · next isOver noOverflow => exact fun fuel' enough => (lag fuel' enough).eq_of_ended isOver noOverflow

/-- A name in a source. -/
def Token.ofName (name : Char) (line : Int) : Token :=
  ⟨.identifier, [name.toUInt8], line⟩

/-- A statement that calls a function. -/
def callStatement (name : Char) (line : Int) : Node :=
  .expression (.call (.variable (.ofName name line)) ⟨.rightParen, [')'.toUInt8], line⟩ [])

/-- A function that prints and then calls another one that prints. -/
def callsWithinCall : Program :=
  [.function (.ofName 'g' 1) [] [.print (.literal .nil)],
    .function (.ofName 'f' 2) [] [.print (.literal (.bool true)), callStatement 'g' 2],
    callStatement 'f' 3]

/-- Where one call may be made at a time, the run stops at the inner call, behind the first of the two
lines that it prints where two may. -/
theorem inner_call_overflows :
    let context : Context := ⟨0, false, 0, Number.zero false, []⟩
    ∃ after last, callsWithinCall.run 20 (context.allowing 1) State.blank =
        .failed (.runtime ⟨.stackOverflow, 2⟩) after ∧
      callsWithinCall.run 20 (context.allowing 2) State.blank = .done () last ∧
      last.output = (#["true", "nil"] : Array Text) ∧ (∃ lines, last.output = after.output ++ lines) ∧
      (∃ paren, callsWithinCall.Reaches State.blank (.token .closing paren) ∧ paren.line = 2) ∧
      callsWithinCall.run 30 (context.allowing 1200) State.blank = .done () last := by
  intro context
  obtain ⟨after, failed⟩ : ∃ after, callsWithinCall.run 20 (context.allowing 1) State.blank =
      .failed (.runtime ⟨.stackOverflow, 2⟩) after := ⟨_, rfl⟩
  obtain ⟨last, ended, output⟩ : ∃ last, callsWithinCall.run 20 (context.allowing 2) State.blank =
      .done () last ∧ last.output = (#["true", "nil"] : Array Text) := ⟨_, rfl, rfl⟩
  have isGlobal : State.blank.current = globals := rfl
  have shallow := depth_shows_in_overflows_only callsWithinCall isGlobal rfl context (Nat.le_succ 1) 20
  have deep := depth_shows_in_overflows_only callsWithinCall isGlobal rfl context
    (show 2 ≤ 1200 by decide) 20
  rw [failed] at shallow
  rw [ended] at deep
  obtain ⟨goesOn, isParen, -⟩ := shallow
  have isLast : last ∈ (callsWithinCall.run 20 (context.allowing 2) State.blank).last := by
    rw [ended]
    exact List.mem_singleton_self last
  exact ⟨after, last, failed, ended, output, goesOn 20 last isLast, isParen, deep 30 (by decide)⟩

end Lox
