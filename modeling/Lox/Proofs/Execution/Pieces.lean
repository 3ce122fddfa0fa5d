import Lox.Execution.Session
import Lox.Proofs.Execution.Movement
import Lox.Proofs.Reading.Scripts

/-!
# Scripts run piece by piece

Without a trace, running two programs one behind the other is running the first and then, if that ended
normally, the second. What the first did before it failed stays, and the second has then done nothing.

So a script may be entered piece by piece. Each piece counts its lines from one, while the script counts
them through, so functions are declared and errors are reported on lines that differ by the lines of the
pieces before. Nothing else differs.

One number may tell both: a line is labelled with the line in its piece together with the piece. The run
of the program that has these labels for lines becomes either of the two when each label is replaced by
what it stands for.
-/

namespace Lox

section

variable {context : Context} (isQuiet : context.debugLevel = 0)

include isQuiet

/-- Running two programs one behind the other is running the first, and the second after it if that
ended normally. -/
theorem Program.run_append (fuel : Nat) (first second : Program) (start : State) :
    Program.run fuel context (first ++ second) start =
      match first.run fuel context start with
      | .done _ after => second.run fuel context after
      | .failed fault after => .failed fault after
      | .unfinished => .unfinished := by
  rw [run_of_quiet isQuiet, run_of_quiet isQuiet, run_of_quiet isQuiet, List.forM_eq_forM,
    List.forM_append]
  change Exec.andThen (forM first (execute fuel context))
    (fun _ => forM second (execute fuel context)) start = _
  unfold Exec.andThen
  cases forM first (execute fuel context) start <;> rfl

/-- Running programs one behind the other is running each of them in turn. -/
theorem Program.run_flatten (fuel : Nat) (programs : List Program) :
    Program.run fuel context programs.flatten =
      programs.forM fun program => program.run fuel context := by
  induction programs with
  | nil => exact run_of_quiet isQuiet fuel []
  | cons program others ih =>
    funext start
    change _ = Exec.andThen (program.run fuel context)
      (fun _ => others.forM fun program => program.run fuel context) start
    rw [List.flatten_cons, run_append isQuiet, ih]
    unfold Exec.andThen
    cases program.run fuel context start <;> rfl

end

namespace Script

variable (script : Script)

/-- A line of a piece and the place of the piece in a script, as one number. -/
def label (piece : Nat) (line : Int) : Int :=
  line * (script.length + 1 : Nat) + piece

/-- The place of the piece that a label tells. -/
def pieceOf (label : Int) : Nat :=
  (label % (script.length + 1 : Nat)).toNat

/-- The line of a label in its piece. -/
def ownLine (label : Int) : Int :=
  label / (script.length + 1 : Nat)

/-- The line of a label in the script: its own one behind the lines of the pieces before. -/
def scriptLine (label : Int) : Int :=
  script.ownLine label + lines (script.take (script.pieceOf label))

/-- The program of a script with labels for lines. -/
def labelled : Program :=
  (script.mapIdx fun place piece => piece.program.moved (script.label place)).flatten

variable {script}

/-- A label tells the piece. -/
theorem pieceOf_label {place : Nat} (isPlace : place ≤ script.length) (line : Int) :
    script.pieceOf (script.label place line) = place := by
  rw [pieceOf, label, Int.add_comm, Int.add_mul_emod_self_right,
    Int.emod_eq_of_lt (Int.natCast_nonneg place) (by omega), Int.toNat_natCast]

/-- A label tells the line in its piece. -/
theorem ownLine_label {place : Nat} (isPlace : place ≤ script.length) (line : Int) :
    script.ownLine (script.label place line) = line := by
  rw [ownLine, label, Int.add_comm, Int.add_mul_ediv_right _ _ (by omega),
    Int.ediv_eq_zero_of_lt (Int.natCast_nonneg place) (by omega), Int.zero_add]

/-- A label tells the line in the script. -/
theorem scriptLine_label {place : Nat} (isPlace : place ≤ script.length) (line : Int) :
    script.scriptLine (script.label place line) = line + lines (script.take place) := by
  rw [scriptLine, ownLine_label isPlace, pieceOf_label isPlace]

/-- What the program with labels becomes when the labels are replaced. -/
theorem moved_labelled (move : Int → Int) :
    script.labelled.moved move =
      (script.mapIdx fun place piece => piece.program.moved (move ∘ script.label place)).flatten := by
  rw [labelled, Program.moved_flatten]
  congr 1
  refine List.ext_getElem? fun place => ?_
  simp only [List.getElem?_map, List.getElem?_mapIdx, Option.map_map, Function.comp_def,
    Program.moved_moved]

/-- The program of a script has each piece behind the lines of the pieces before. -/
theorem program_eq_flatten (before : Nat) (script : Script) :
    script.program before =
      (script.mapIdx fun place piece => piece.program.later (before + lines (script.take place))).flatten := by
  induction script generalizing before with
  | nil => rfl
  | cons piece others ih =>
    rw [program, ih, List.mapIdx_cons, List.flatten_cons]
    simp only [lines, List.take_succ_cons, List.take_zero, List.map_cons, List.map_nil, List.sum_cons,
      List.sum_nil, Nat.add_zero, Nat.add_assoc]

/-- With their own lines for labels, the pieces follow one another. -/
theorem moved_ownLine : script.labelled.moved script.ownLine = script.programs.flatten := by
  rw [moved_labelled, programs]
  congr 1
  refine List.mapIdx_eq_iff.mpr fun place => ?_
  rw [List.getElem?_map]
  refine Option.map_congr fun piece isPiece => ?_
  have isPlace : place < script.length := (List.getElem?_eq_some_iff.mp isPiece).1
  have own : script.ownLine ∘ script.label place = id :=
    funext (ownLine_label (Nat.le_of_lt isPlace))
  rw [own, Program.moved_id]

/-- With the lines in the script for labels, the pieces make up the program of the script. -/
theorem moved_scriptLine : script.labelled.moved script.scriptLine = script.program 0 := by
  rw [moved_labelled, program_eq_flatten]
  congr 1
  refine List.mapIdx_eq_mapIdx_iff.mpr fun place isPlace => ?_
  have behind : script.scriptLine ∘ script.label place =
      fun line : Int => line + (lines (script.take place) : Int) :=
    funext (scriptLine_label (Nat.le_of_lt isPlace))
  rw [behind, Nat.zero_add]
  rfl

/-- What was there before a script keeps its lines when they are labelled as those of the first piece and
the labels are replaced. -/
theorem moved_label_zero {move : Int → Int} (isLine : ∀ line, move (script.label 0 line) = line)
    (start : State) : (start.moved (script.label 0)).moved move = start := by
  have unmoved : move ∘ script.label 0 = id := funext isLine
  rw [State.moved_moved, unmoved, State.moved_id]

/-- Running a script piece by piece and running it as a whole are one run, with the line in the piece or
the line in the script for each label. -/
theorem runs_of_labelled (script : Script) (fuel : Nat) (start : State) {context : Context}
    (isQuiet : context.debugLevel = 0) :
    let labelled := script.labelled.run fuel context (start.moved (script.label 0))
    script.programs.forM (fun program => program.run fuel context) start =
        labelled.moved script.ownLine ∧
      (script.program 0).run fuel context start = labelled.moved script.scriptLine := by
  have own := moved_label_zero (ownLine_label (Nat.zero_le script.length)) start
  have behind : (start.moved (script.label 0)).moved script.scriptLine = start :=
    moved_label_zero (fun line => (scriptLine_label (Nat.zero_le _) line).trans (Int.add_zero line)) start
  refine ⟨?_, ?_⟩
  · rw [← Program.run_moved isQuiet, moved_ownLine, own, Program.run_flatten isQuiet]
  · rw [← Program.run_moved isQuiet, moved_scriptLine, behind]

end Script

/-- Two sources that are programs are one program with a line break between them: that of the first and
then that of the second, whose tokens are one line more than the first has line breaks further on.

Without a trace, running two programs one behind the other is running the first from whatever state it
is, and then the second where the first has left off. If the first fails, that is how the run ends, in
the state that the first has left.

So a script has the statements of its pieces in turn, and running the pieces one after another is running
the script, but for lines: with the same output, the same names bound to the same values, and the same
error if there is one. Which lines the tokens of functions and the errors are on in either run is told by
the run of the program with labels: the line in the piece that a label tells, and the same line behind the
lines of the pieces before. -/
theorem pieces_run_as_script :
    (∀ {first second : List UInt8} {program program' : Program},
      Program.ofSource first = .ok program → Program.ofSource second = .ok program' →
      Program.ofSource (first ++ newline :: second) =
        .ok (program ++ program'.later (1 + first.count newline))) ∧
    (∀ (fuel : Nat) (first second : Program) (start : State) {context : Context},
      context.debugLevel = 0 →
      Program.run fuel context (first ++ second) start =
        match first.run fuel context start with
        | .done _ after => second.run fuel context after
        | .failed fault after => .failed fault after
        | .unfinished => .unfinished) ∧
    ∀ script : Script, Program.ofSource script.source = .ok (script.program 0) ∧
      ∀ (fuel : Nat) (start : State) {context : Context}, context.debugLevel = 0 →
        let labelled := script.labelled.run fuel context (start.moved (script.label 0))
        script.programs.forM (fun program => program.run fuel context) start =
            labelled.moved script.ownLine ∧
          (script.program 0).run fuel context start = labelled.moved script.scriptLine := by
  refine ⟨Program.ofSource_append, ?_, fun script => ⟨script.ofSource_source, ?_⟩⟩
  · intro fuel first second start context isQuiet
    exact Program.run_append isQuiet fuel first second start
  · intro fuel start context isQuiet
    exact script.runs_of_labelled fuel start isQuiet

/-- No function is in the state with an empty global scope. -/
theorem State.moved_blank (move : Int → Int) : State.blank.moved move = State.blank := by
  simp [State.moved, State.blank, Store.mapTokens, Store.push, Store.empty, Bindings.mapTokens]

/-- A piece that declares a name and, on its second line, a function that negates it. -/
def declaresTwo : Piece where
  source := Text.encode "var a;\nfun f() \x7b-a;\x7d"
  program :=
    [.var ⟨.identifier, ['a'.toUInt8], 1⟩ .null,
      .function ⟨.identifier, ['f'.toUInt8], 2⟩ []
        [.expression (.unary ⟨.minus, ['-'.toUInt8], 2⟩ (.variable ⟨.identifier, ['a'.toUInt8], 2⟩))]]
  accepted := rfl

/-- A piece that prints the name and fails to negate it on its second line, as it is nil. -/
def printsAndNegates : Piece where
  source := Text.encode "print a;\n-a;"
  program :=
    [.print (.variable ⟨.identifier, ['a'.toUInt8], 1⟩),
      .expression (.unary ⟨.minus, ['-'.toUInt8], 2⟩ (.variable ⟨.identifier, ['a'.toUInt8], 2⟩))]
  accepted := rfl

/-- Of the two pieces, the second fails on its second line, and their script on its fourth. Both have
printed the same. The first piece has the same token on its second line as well, but the label of the
error tells that it is the second piece's. -/
theorem second_piece_fails_two_lines_on :
    let context := (Session.start 0 (Number.zero false)).context
    let script : Script := [declaresTwo, printsAndNegates]
    let byPiece := script.programs.forM (fun program => program.run 5 context) State.blank
    let whole := (script.program 0).run 5 context State.blank
    let labelled := script.labelled.run 5 context (State.blank.moved (script.label 0))
    Program.ofSource (declaresTwo.source ++ newline :: printsAndNegates.source) =
      .ok (declaresTwo.program ++ printsAndNegates.program.later 2) ∧
    (∃ after, declaresTwo.program.run 5 context State.blank = .done () after ∧
      Program.run 5 context (declaresTwo.program ++ printsAndNegates.program) State.blank =
        printsAndNegates.program.run 5 context after) ∧
    byPiece = labelled.moved script.ownLine ∧ whole = labelled.moved script.scriptLine ∧
    (∃ after, labelled = .failed (.runtime ⟨.operandNotNumber, script.label 1 2⟩) after) ∧
    ∃ left right, byPiece = .failed (.runtime ⟨.operandNotNumber, 2⟩) left ∧
      whole = .failed (.runtime ⟨.operandNotNumber, 4⟩) right ∧
      left.output = #[("nil" : Text)] ∧ right.output = left.output := by
  obtain ⟨joined, inTurn, alike⟩ := pieces_run_as_script
  intro context script byPiece whole labelled
  obtain ⟨-, runs⟩ := alike script
  obtain ⟨own, behind⟩ := @runs 5 State.blank context rfl
  have unmoved := State.moved_blank (script.label 0)
  exact ⟨joined declaresTwo.accepted printsAndNegates.accepted,
    ⟨_, rfl, inTurn 5 declaresTwo.program printsAndNegates.program State.blank rfl⟩,
    own, behind, ⟨_, (congrArg (script.labelled.run 5 context) unmoved).trans rfl⟩,
    _, _, rfl, rfl, rfl, rfl⟩

end Lox
