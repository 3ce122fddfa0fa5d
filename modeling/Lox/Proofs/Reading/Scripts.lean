import Lox.Proofs.Grammar.Renaming
import Lox.Proofs.Reading.Exactness
import Lox.Proofs.Token.Seams

/-!
# Scripts made of pieces

Two sources that are programs are one program when the second stands behind a line break: no token, no
optional clause and no alternative reaches over the seam. The program is that of the first followed by
that of the second, whose tokens are as many lines further on as the first source has.

A script is any number of such pieces.
-/

namespace Lox

namespace Token

/-- Moving tokens to later lines leaves how they are spelled. -/
theorem keepsSpelling_later (gap : Nat) : KeepsSpelling (later gap) :=
  ⟨fun _ => rfl, fun _ => rfl⟩

/-- No line further on is the same line. -/
theorem later_zero : later 0 = id :=
  funext fun token => congrArg (fun line => ({ token with line } : Token)) (Int.add_zero token.line)

/-- Some lines further on and then some more. -/
theorem later_comp_later (first second : Nat) :
    later second ∘ later first = later (first + second) :=
  funext fun token => congrArg (fun line => ({ token with line } : Token))
    ((Int.add_assoc token.line first second).trans (by rw [Int.natCast_add]))

end Token

namespace Program

/-- The program with its tokens some lines further on. -/
def later (gap : Nat) (program : Program) : Program :=
  Node.mapTokensOfList (Token.later gap) program

/-- No line further on is the same program. -/
theorem later_zero (program : Program) : program.later 0 = program := by
  rw [later, Token.later_zero, Node.mapTokensOfList_id]

/-- Some lines further on and then some more. -/
theorem later_later (first second : Nat) (program : Program) :
    (program.later first).later second = program.later (first + second) := by
  rw [later, later, Node.mapTokensOfList_mapTokensOfList, Token.later_comp_later, later]

/-- Programs one behind the other are moved together. -/
theorem later_append (gap : Nat) (first second : Program) :
    later gap (first ++ second) = first.later gap ++ second.later gap := by
  simp only [later, Node.mapTokensOfList_eq_map, List.map_append]

end Program

namespace Grammar

open Source

/-- The tokens of two programs, one behind the other, are those of one program. -/
theorem IsProgram.append {first second : List Token} {program program' : List Stmt}
    (isFirst : IsProgram first program) (isSecond : IsProgram second program') :
    IsProgram (first ++ second) (program ++ program') := by
  obtain ⟨items, declarations, rfl, rfl⟩ := isFirst
  obtain ⟨items', declarations', rfl, rfl⟩ := isSecond
  refine ⟨items ++ items', ?_, List.flatMap_append.symm, List.map_append.symm⟩
  exact List.forall_mem_append.mpr ⟨declarations, declarations'⟩

end Grammar

namespace Source

/-- Statements one behind the other keep the limits when all of them do. -/
theorem Stmt.keepLimits_append {first second : List Stmt} :
    Stmt.KeepLimits (first ++ second) ↔ Stmt.KeepLimits first ∧ Stmt.KeepLimits second := by
  induction first with
  | nil => simp [Stmt.KeepLimits]
  | cons tree trees ih => simp only [List.cons_append, Stmt.KeepLimits, ih, and_assoc]

/-- The nodes of statements one behind the other. -/
theorem Stmt.nodes_append (first second : List Stmt) :
    Stmt.nodes (first ++ second) = Stmt.nodes first ++ Stmt.nodes second := by
  induction first with
  | nil => rfl
  | cons tree trees ih => rw [List.cons_append, Stmt.nodes, Stmt.nodes, ih, List.cons_append]

/-- The tree of two sources with a line break between them is that of the first and then that of the
second, as many lines further on as the first has. -/
theorem read_append {first second : List UInt8} {tree tree' : List Stmt}
    (isFirst : read first = .ok tree) (isSecond : read second = .ok tree') :
    read (first ++ newline :: second) =
      .ok (tree ++ Stmt.mapTokensOfList (Token.later (1 + first.count newline)) tree') := by
  obtain ⟨⟨isProgram, settled⟩, keeps⟩ := (read_eq_ok_iff first tree).mp isFirst
  obtain ⟨⟨isProgram', settled'⟩, keeps'⟩ := (read_eq_ok_iff second tree').mp isSecond
  have sentence : Grammar.Sentence (Source.tokens first) := ⟨tree, isProgram⟩
  have moved := isProgram'.mapTokens (Token.keepsSpelling_later (1 + first.count newline))
  rw [read_eq_ok_iff, tokens_append sentence.freeOfErrors]
  refine ⟨⟨isProgram.append moved, ?_⟩, ?_⟩
  · rw [← Stmt.nearestElseAll_mapTokens (Token.later (1 + first.count newline))] at settled'
    rw [Stmt.nearestElseAll_iff] at settled settled' ⊢
    exact List.forall_mem_append.mpr ⟨settled, settled'⟩
  · exact Stmt.keepLimits_append.mpr ⟨keeps, (Stmt.keepLimits_mapTokens _ tree').mpr keeps'⟩

end Source

/-- Two sources that are programs are one program with a line break between them: the first one's
statements and then the second one's, as many lines further on as the first has. -/
theorem Program.ofSource_append {first second : List UInt8} {program program' : Program}
    (isFirst : Program.ofSource first = .ok program)
    (isSecond : Program.ofSource second = .ok program') :
    Program.ofSource (first ++ newline :: second) =
      .ok (program ++ program'.later (1 + first.count newline)) := by
  obtain ⟨tree, isRead, rfl⟩ := (Source.ofSource_eq_ok_iff first program).mp isFirst
  obtain ⟨tree', isRead', rfl⟩ := (Source.ofSource_eq_ok_iff second program').mp isSecond
  refine (Source.ofSource_eq_ok_iff _ _).mpr ⟨_, Source.read_append isRead isRead', ?_⟩
  rw [Source.Stmt.nodes_append, Source.Stmt.nodes_mapTokens, later]

/-- A source with its program. -/
structure Piece where
  source : List UInt8
  program : Program
  accepted : Program.ofSource source = .ok program

/-- The lines that a piece takes up, the one it ends on included. -/
def Piece.lines (piece : Piece) : Nat :=
  1 + piece.source.count newline

/-- Pieces that follow one another, each on lines of its own. -/
abbrev Script := List Piece

namespace Script

/-- The source of a script, with a line break between any two pieces. -/
def source : Script → List UInt8
  | [] => []
  | [piece] => piece.source
  | piece :: others => piece.source ++ newline :: source others

/-- The lines of the pieces of a script. -/
def lines (script : Script) : Nat :=
  (script.map Piece.lines).sum

/-- The program of a script some lines further on: each piece behind the lines of those before it. -/
def program (before : Nat) : Script → Program
  | [] => []
  | piece :: others => piece.program.later before ++ program (before + piece.lines) others

/-- The programs of the pieces of a script. -/
def programs (script : Script) : List Program :=
  script.map Piece.program

/-- A script that is moved to later lines. -/
theorem later_program (before gap : Nat) (script : Script) :
    (script.program before).later gap = script.program (before + gap) := by
  induction script generalizing before with
  | nil => rfl
  | cons piece others ih =>
    rw [program, program, Program.later_append, Program.later_later, ih, Nat.add_right_comm]

/-- The program of a script's source is that of its pieces, each on its lines. -/
theorem ofSource_source (script : Script) :
    Program.ofSource script.source = .ok (script.program 0) := by
  induction script with
  | nil => rfl
  | cons piece others ih =>
    rw [program, Program.later_zero, Nat.zero_add]
    cases others with
    | nil => rw [source, piece.accepted, program, List.append_nil]
    | cons next others =>
      have whole := Program.ofSource_append piece.accepted ih
      rw [later_program, Nat.zero_add] at whole
      exact whole

end Script

end Lox
