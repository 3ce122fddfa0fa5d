import Lox.Execution.Session
import Lox.Node.Load
import Lox.Proofs.CommandLine.Emission
import Lox.Proofs.Execution.Comparison
import Lox.Proofs.Grammar.Forms
import Lox.Proofs.Text.Characters
import Lox.Proofs.Token.Ascii

/-!
# What escapes a run

A session in which only the standard functions are known and nothing but some programs is run. A run in
it that fails does so with an error that the program can be blamed for, unless a tree puts a node or an
operator where it means nothing. One other way to fail is left: a name that is no text of characters
cannot be written to the debug file.

The trees and names of sources are never like that. So runs of sources fail with errors alone, whatever
was run before them.
-/

namespace Lox

/-- An error that a program can be blamed for. -/
def Fault.IsError : Fault → Prop
  | .runtime ⟨.hostFailure _, _⟩ | .defect _ => False
  | .runtime _ => True

/-- A node or an operator stood where it means nothing. -/
def Fault.IsUnsupported : Fault → Prop
  | .defect (.unsupportedUnary _) | .defect (.unknownOperator _) | .defect (.notStatement _)
  | .defect (.notExpression _) => True
  | _ => False

namespace Session

/-- The sessions that come about when some programs are run, and nothing else is bound by the host than
the standard functions. -/
inductive Built (programs : Program → Prop) : Session → Prop
  | start (debugLevel : Nat) (now : Number) : Built programs (Session.start debugLevel now)
  | run (fuel : Nat) {session : Session} {program : Program} :
      Built programs session → programs program → Built programs (session.run fuel program).2
  | runUnit (fuel : Nat) {session : Session} {program : Program} :
      Built programs session → programs program → Built programs (session.runUnit fuel program).2
  | loadStandard {session : Session} :
      Built programs session → Built programs session.loadStandard
  | close {session : Session} : Built programs session → Built programs session.close

end Session

section

variable {programs : Program → Prop}

/-- A session of some programs beside itself: its tokens are those of the programs, and the clock is
the only host function. -/
def ownLikeness (programs : Program → Prop) : Likeness where
  tokens _ token token' :=
    token = token' ∧ ∃ program, programs program ∧ token ∈ Node.tokensOfList program
  kind_eq same := congrArg Token.kind same.1
  lexeme_eq same := congrArg Token.lexeme same.1
  strays := ∃ program, programs program ∧ ¬Node.AreStatements program
  hosted := False
  traces _ _ := True

/-- A run in a context beside itself. -/
def ownComparison (programs : Program → Prop) (context : Context) : Comparison :=
  (ownLikeness programs).comparisonIn context (Runs.Steps.trace_self (fun _ _ => trivial) rfl)

/-- A program stands beside itself. -/
theorem matched_own {program : Program} (isProgram : programs program) :
    List.Forall₂ (Node.Matched (ownLikeness programs).toMatching) program program ∧
      ((ownLikeness programs).strays ∨ Node.AreStatements program) :=
  ⟨Node.matchedOfList_self fun _ _ isToken => ⟨rfl, program, isProgram, isToken⟩,
    (em (Node.AreStatements program)).symm.imp_left fun strays => ⟨program, isProgram, strays⟩⟩

/-- All names in some programs are texts of characters. -/
def NamesAreText (programs : Program → Prop) : Prop :=
  ∀ program, programs program → ∀ token ∈ Node.tokensOfList program, token.text.OnlyChars

/-- Only lines that are no texts of characters cannot be stored in a debug file. -/
theorem traceError?_eq_some {context : Context} {line : Text} {error : StorageError}
    (isError : context.traceError? line = some error) :
    context.traceStored = true ∧ ¬line.OnlyChars := by
  unfold Context.traceError? at isError
  split at isError
  · next isStored =>
    refine ⟨isStored, fun onlyChars => ?_⟩
    rw [Text.storageError?_eq_none_iff.mpr onlyChars] at isError
    cases isError
  · cases isError

/-- A line that a run of the programs traces is a text of characters where all names are. -/
theorem onlyChars_of_traced (named : NamesAreText programs) {context : Context} {level : Nat}
    {line : Text} (traced : (ownComparison programs context).Traced level line) : line.OnlyChars := by
  cases traced with
  | declare isName _ =>
    obtain ⟨-, program, isProgram, isToken⟩ := isName
    simp [Value.described, Text.quoted, named program isProgram _ isToken]
  | define isName =>
    obtain ⟨-, program, isProgram, isToken⟩ := isName
    simp [named program isProgram _ isToken]
  | call given isValue isAsked =>
    cases isValue with
    | function isName _ _ _ =>
      obtain ⟨-, program, isProgram, isToken⟩ := isName
      simp [Value.shown, Text.ofNat, named program isProgram _ isToken]
    | clock | hosted => simp [Value.shown, Text.ofNat]
    | _ => cases isAsked
  | ifCondition holds | whileCondition holds => cases holds <;> simp [shownCondition]

/-- An error at a token with a text of characters is reported by a text of characters. -/
theorem Blamed.onlyChars {role : Role} {token : Token} {cause : Cause} (blamed : Blamed role token cause)
    (isText : token.text.OnlyChars) (line : Int) :
    (Fault.runtime ⟨cause, line⟩).message.OnlyChars := by
  cases blamed <;> simp [Fault.message, RuntimeError.message, Cause.message, isText, Text.ofNat]

/-- A fault that a run of the programs fails with is reported by a text of characters where all names
are. -/
theorem onlyChars_of_raised (named : NamesAreText programs) {context : Context}
    {fault fault' : Fault} (raised : (ownComparison programs context).Raised fault fault') :
    fault.message.OnlyChars := by
  cases raised with
  | blamed isToken blamed =>
    obtain ⟨-, program, isProgram, isToken⟩ := isToken
    exact blamed.onlyChars (named program isProgram _ isToken) _
  | unsupportedUnary _ _ => simp [Fault.message, Defect.message, Token.shown, Text.quoted]
  | unknownOperator _ _ => simp [Fault.message, Defect.message, Token.shown, Text.quoted]
  | notStatement form _ => cases form <;> simp [Fault.message, Defect.message, Form.shown]
  | notExpression form _ => cases form <;> simp [Fault.message, Defect.message, Form.shown]
  | host _ hosted => exact hosted.elim
  | untraced traced _ isError =>
    exact absurd (onlyChars_of_traced named traced) (traceError?_eq_some isError).2

/-- The state holds only what the programs have put there. -/
def State.Owned (programs : Program → Prop) (state : State) : Prop :=
  (ownLikeness programs).States state state

/-- A fault of a run of the programs: a fault of a statement, or that of tracing one. -/
def Escaped (programs : Program → Prop) (context : Context) (fault : Fault) : Prop :=
  (ownComparison programs context).Raised fault fault ∨
    ∃ other error, (ownComparison programs context).Raised other other ∧
      context.traceError? (("runtime error: " : Text) ++ other.message) = some error ∧
      1 ≤ context.debugLevel ∧ fault = .defect (.storage error)

/-- In whatever state, a line is traced and nothing else is changed, or it cannot be stored. -/
theorem Context.trace_cases (context : Context) (level : Nat) (line : Text) :
    (∀ state, ∃ lines, context.trace level line state = .done () { state with trace := lines }) ∨
      ∃ error, (∀ state, context.trace level line state = .failed (.defect (.storage error)) state) ∧
        level ≤ context.debugLevel ∧ context.traceError? line = some error := by
  unfold Context.trace
  split
  · next enough =>
    cases isError : context.traceError? line with
    | some error => exact .inr ⟨error, fun _ => rfl, enough, rfl⟩
    | none => exact .inl fun _ => ⟨_, rfl⟩
  · exact .inl fun _ => ⟨_, rfl⟩

/-- A line of characters is traced. -/
theorem Context.trace_onlyChars (context : Context) (level : Nat) {line : Text}
    (onlyChars : line.OnlyChars) (state : State) :
    ∃ lines, context.trace level line state = .done () { state with trace := lines } := by
  refine (context.trace_cases level line).resolve_right (fun failed => ?_) state
  obtain ⟨error, -, -, isError⟩ := failed
  exact (traceError?_eq_some isError).2 onlyChars

/-- Whatever is traced, a state holds only what the programs have put there. -/
theorem State.Owned.traced {state : State} (owned : state.Owned programs) (lines : Array Text) :
    ({ state with trace := lines } : State).Owned programs :=
  { owned with traces := trivial }

/-- A run of one of the programs leaves only what they have put there, and fails with a fault of
theirs. -/
theorem Program.run_own {program : Program} (isProgram : programs program) (fuel : Nat)
    (context : Context) {state : State} (owned : state.Owned programs) :
    match program.run fuel context state with
    | .done _ after => after.Owned programs
    | .failed fault after => after.Owned programs ∧ Escaped programs context fault
    | .unfinished => True := by
  have onlyChars : program.firstLine.OnlyChars := by simp [Program.firstLine, Text.ofNat]
  obtain ⟨lines, isBegun⟩ := context.trace_onlyChars 1 onlyChars state
  have matched := matched_own isProgram
  have ends := ((ownComparison programs context).alike fuel).statements context.callsLeft matched.1
    matched.2 _ _ (owned.traced lines)
  rw [program.run_of_begun fuel isBegun]
  change (ownComparison programs context).Ends Runs.anything (program.forM (execute fuel context) _)
    (program.forM (execute fuel context) _) at ends
  generalize program.forM (execute fuel context) { state with trace := lines } = outcome at ends
  cases ends with
  | unfinished => trivial
  | @done _ _ after _ ownedAfter _ =>
    have onlyChars : Text.OnlyChars "run finished" := by simp
    obtain ⟨last, isLast⟩ := context.trace_onlyChars 1 onlyChars after
    dsimp only
    rw [isLast]
    exact State.Owned.traced ownedAfter last
  | @failed fault _ after _ ownedAfter raised =>
    obtain isTraced | ⟨error, isLast, enough, isError⟩ :=
      context.trace_cases 1 (("runtime error: " : Text) ++ fault.message)
    · obtain ⟨last, isLast⟩ := isTraced after
      dsimp only
      rw [isLast]
      exact ⟨State.Owned.traced ownedAfter last, .inl raised⟩
    · -- What is said about the first fault cannot be stored, so that is the fault that is left.
      dsimp only
      rw [isLast]
      exact ⟨ownedAfter, .inr ⟨fault, error, raised, isError, enough, rfl⟩⟩

/-- A state in which nothing is bound holds nothing of any program. -/
theorem State.owned_blank : State.blank.Owned programs where
  store := by
    have empty : (ownLikeness programs).Stores Store.empty Store.empty :=
      ⟨rfl, fun _ => rfl, fun _ => .nil⟩
    exact empty.push none .nil
  current_eq := rfl
  nextCell_eq := rfl
  output_eq := rfl
  traces := trivial

/-- The standard functions belong to no program. -/
theorem State.Owned.loadStandard {state : State} (owned : state.Owned programs) :
    state.loadStandard.Owned programs where
  store := owned.store.define globals "clock" ⟨rfl, .clock "clock" 0⟩
  current_eq := rfl
  nextCell_eq := rfl
  output_eq := rfl
  traces := trivial

/-- Earlier bindings belong to the programs. -/
theorem State.Owned.restore {before after : State} (owned : after.Owned programs)
    (earlier : before.Owned programs) :
    ({ after with store := after.store.restore globals (before.store.snapshot globals) } :
      State).Owned programs where
  store :=
    { size_eq := rfl
      enclosing?_eq := fun _ => rfl
      bindings := fun scope => by
        change (ownLikeness programs).Scopes
          ((after.store.modify globals fun _ => before.store.bindings globals).bindings scope)
          ((after.store.modify globals fun _ => before.store.bindings globals).bindings scope)
        rw [Store.bindings_modify]
        split
        · exact earlier.store.bindings globals
        · exact owned.store.bindings scope }
  current_eq := rfl
  nextCell_eq := rfl
  output_eq := rfl
  traces := trivial

namespace Session

variable {session : Session} {program : Program}

/-- A run leaves a session with only what the programs have put there, and fails with a fault of
theirs. -/
theorem run_own (owned : session.state.Owned programs) (isProgram : programs program) (fuel : Nat) :
    (session.run fuel program).2.state.Owned programs ∧
      ∀ fault, (session.run fuel program).1 = .failed fault →
        Escaped programs session.context fault := by
  have ends := program.run_own isProgram fuel session.context owned
  unfold Session.run
  generalize program.run fuel session.context session.state = outcome at ends
  cases outcome with
  | done _ after => exact ⟨ends, fun _ => nofun⟩
  | failed fault after =>
    refine ⟨ends.1, fun other isFault => ?_⟩
    obtain rfl := Ending.failed.inj isFault
    exact ends.2
  | unfinished => exact ⟨owned, fun _ => nofun⟩

/-- Running a program as a unit leaves a session with only what the programs have put there. -/
theorem runUnit_own (owned : session.state.Owned programs) (isProgram : programs program)
    (fuel : Nat) : (session.runUnit fuel program).2.state.Owned programs := by
  have after := (run_own owned isProgram fuel).1
  unfold runUnit
  split
  · next isRun =>
    rw [isRun] at after
    exact after.restore owned
  · exact after

/-- A session holds only what the programs that were run in it have put there. -/
theorem Built.owned (built : session.Built programs) : session.state.Owned programs := by
  induction built with
  | start debugLevel now => exact State.owned_blank.loadStandard
  | run fuel _ isProgram ih => exact (run_own ih isProgram fuel).1
  | runUnit fuel _ isProgram ih => exact runUnit_own ih isProgram fuel
  | loadStandard _ ih => exact ih.loadStandard
  | close _ ih => exact ih

end Session

/-- A fault is an error, or a tree has a node or an operator that means nothing, or a name cannot be
written to the debug file. -/
def Fault.Explained (programs : Program → Prop) (context : Context) (fault : Fault) : Prop :=
  fault.IsError ∨
    (fault.IsUnsupported ∧ ∃ program, programs program ∧ ¬Node.AreStatements program) ∨
    ∃ error, fault = .defect (.storage error) ∧ 0 < context.debugLevel ∧ context.traceStored = true ∧
      ¬NamesAreText programs

/-- A fault that is raised by a statement is explained. -/
theorem explained_of_raised {context : Context} {fault fault' : Fault}
    (raised : (ownComparison programs context).Raised fault fault') :
    fault.Explained programs context := by
  cases raised with
  | blamed _ blamed => exact .inl (by cases blamed <;> trivial)
  | unsupportedUnary strays _ | unknownOperator strays _ => exact .inr (.inl ⟨trivial, strays⟩)
  | notStatement _ strays | notExpression _ strays => exact .inr (.inl ⟨trivial, strays⟩)
  | host _ hosted => exact hosted.elim
  | @untraced level line error traced enough isError =>
    obtain ⟨isStored, noText⟩ := traceError?_eq_some isError
    have positive : 0 < level := by cases traced <;> decide
    exact .inr (.inr ⟨error, rfl, Nat.lt_of_lt_of_le positive enough, isStored, fun named =>
      noText (onlyChars_of_traced named traced)⟩)

/-- A fault of a run is explained. -/
theorem Escaped.explained {context : Context} {fault : Fault}
    (escaped : Escaped programs context fault) : fault.Explained programs context := by
  obtain raised | ⟨other, error, raised, isError, enough, rfl⟩ := escaped
  · exact explained_of_raised raised
  · obtain ⟨isStored, noText⟩ := traceError?_eq_some isError
    refine .inr (.inr ⟨error, rfl, enough, isStored, fun named => noText ?_⟩)
    simpa using onlyChars_of_raised named raised

/-- The names in the program of a source are texts of characters. -/
theorem Program.onlyChars_of_ofSource {source : List UInt8} {program : Program}
    (accepted : Program.ofSource source = .ok program) :
    ∀ token ∈ Node.tokensOfList program, token.text.OnlyChars := by
  intro token isToken
  have isKept := Grammar.mem_kept.mp (Program.tokens_subset accepted isToken)
  exact onlyChars_of_mem_tokens isKept.1 isKept.2

/-- The names in programs of sources are texts of characters. -/
theorem namesAreText_of_sources
    (sources : ∀ program, programs program → ∃ source, Program.ofSource source = .ok program) :
    NamesAreText programs := by
  intro program isProgram
  obtain ⟨source, accepted⟩ := sources program isProgram
  exact Program.onlyChars_of_ofSource accepted

/-- In a session in which nothing but some programs is run, a run that fails does so with an error that
the program can be blamed for. Otherwise one of the trees has a node or an operator where it means
nothing, which is the defect, or one of them has a name that is no text of characters and could not be
written to the open debug file. Neither happens if all programs are those of sources. -/
theorem only_errors_escape {session : Session} (built : session.Built programs) {program : Program}
    (isProgram : programs program) {fuel : Nat} {fault : Fault}
    (failed : (session.run fuel program).1 = .failed fault) :
    (fault.IsError ∨
      (fault.IsUnsupported ∧ ∃ other, programs other ∧ ¬Node.AreStatements other) ∨
      ∃ error, fault = .defect (.storage error) ∧ 0 < session.debugLevel ∧
        session.debugOpen = true ∧ ¬NamesAreText programs) ∧
    ((∀ other, programs other → ∃ source, Program.ofSource source = .ok other) → fault.IsError) := by
  have explained := ((Session.run_own built.owned isProgram fuel).2 fault failed).explained
  refine ⟨explained, fun sources => explained.resolve_right fun others => ?_⟩
  obtain ⟨-, other, isOther, strays⟩ | ⟨-, -, -, -, unnamed⟩ := others
  · obtain ⟨source, accepted⟩ := sources other isOther
    exact strays (Program.areStatements_of_ofSource accepted)
  · exact unnamed (namesAreText_of_sources sources)

end

/-- A tree that declares a name of one byte, which is no text. -/
def declaresByte : Program := [.var ⟨.identifier, [255], 1⟩ .null]

/-- A source that negates nil. -/
def negatesNil : List UInt8 := Text.encode "-nil;"

/-- Negating nil in a traced session fails with an error. Declaring a name of one byte fails with a
defect of storage, because the name is no text. -/
theorem stray_name_escapes_negation_does_not :
    let session := Session.start 2 (Number.zero false)
    (∃ program fault, Program.ofSource negatesNil = .ok program ∧
      (session.run 5 program).1 = .failed fault ∧ fault.IsError) ∧
    ∃ error, (session.run 3 declaresByte).1 = .failed (.defect (.storage error)) ∧
      ¬NamesAreText (· = declaresByte) := by
  intro session
  constructor
  · have accepted : Program.ofSource negatesNil =
        .ok [.expression (.unary ⟨.minus, ['-'.toUInt8], 1⟩ (.literal .nil))] := rfl
    have isSource := fun other (isOther : ∃ source, Program.ofSource source = .ok other) => isOther
    have failed : (session.run 5 [.expression (.unary ⟨.minus, ['-'.toUInt8], 1⟩ (.literal .nil))]).1 =
        .failed (.runtime ⟨.operandNotNumber, 1⟩) := rfl
    exact ⟨_, _, accepted, failed,
      (only_errors_escape (.start 2 _) (isSource _ ⟨_, accepted⟩) failed).2 isSource⟩
  · have failed : (session.run 3 declaresByte).1 =
        .failed (.defect (.storage (.unwritable 8 (.stray 255) 1))) := rfl
    have built : session.Built (· = declaresByte) := .start 2 _
    obtain ⟨isError | ⟨isUnsupported, -⟩ | ⟨-, -, -, -, unnamed⟩, -⟩ :=
      only_errors_escape built rfl failed
    · exact isError.elim
    · exact isUnsupported.elim
    · exact ⟨_, failed, unnamed⟩

end Lox
