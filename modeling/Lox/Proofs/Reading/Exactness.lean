import Lox.Proofs.Grammar.Limits
import Lox.Proofs.Grammar.Loops
import Lox.Proofs.Reading.StatementDelivery
import Lox.Proofs.Token.EndToken

/-!
# Which sources are programs

The reader accepts exactly the tokens of the grammar's programs and returns the one tree in which
every alternative belongs to the nearest conditional. A source is a program when its tokens are a
sentence without lexical errors and nothing in it goes beyond the limits.
-/

namespace Lox.Source

open Lox.Grammar Parse

/-- A success of readers in sequence comes from a success of each. -/
theorem bind_eq_ok {α β : Type} {reader : Parse α} {next : α → Parse β} {tokens rest : List Token}
    {final : β} (done : (reader >>= next) tokens = .ok (final, rest)) :
    ∃ value middle, reader tokens = .ok (value, middle) ∧ next value middle = .ok (final, rest) := by
  rw [bind_apply] at done
  cases result : reader tokens with
  | error failure => rw [result] at done; exact absurd done (by simp)
  | ok success => rw [result] at done; exact ⟨success.1, success.2, rfl, done⟩

/-- Items up to the end leave nothing, if each of them takes a token. -/
theorem itemsUntil_rest {α : Type} {item : Parse α} {fuel : Nat} {tokens rest : List Token}
    {values : List α}
    (takes : ∀ tokens value rest, item tokens = .ok (value, rest) → rest.length < tokens.length)
    (enough : tokens.length < fuel)
    (done : itemsUntil none item fuel tokens = .ok (values, rest)) : rest = [] := by
  induction fuel generalizing tokens values with
  | zero => exact absurd enough (Nat.not_lt_zero _)
  | succ fuel ih =>
    rw [itemsUntil, peek_bind_apply] at done
    cases tokens with
    | nil =>
      rw [List.head?_nil, Option.map_none, if_pos rfl] at done
      cases done
      rfl
    | cons token others =>
      rw [if_neg (by simp)] at done
      obtain ⟨first, middle, result, done⟩ := bind_eq_ok done
      obtain ⟨more, last, result', done⟩ := bind_eq_ok done
      cases done
      have shorter := takes _ _ _ result
      exact ih (by omega) result'

/-- The declarations of some tokens leave none of them. -/
theorem declarations_rest {fuel : Nat} {tokens rest : List Token} {program : List Stmt}
    (enough : tokens.length < fuel) (done : declarations fuel tokens = .ok (program, rest)) :
    rest = [] :=
  itemsUntil_rest ((reads_statement fuel .declaration).takes fun _ _ => Statement.ne_nil) enough done

/-- The tokens of a program are those that have a settled tree, which is the tree that is read. -/
theorem ofTokens_eq_ok_iff (tokens : List Token) (program : List Stmt) :
    ofTokens tokens = .ok program ↔ IsProgram tokens program ∧ Stmt.NearestElseAll program := by
  constructor
  · intro done
    unfold ofTokens at done
    split at done
    · next tree rest result =>
      cases done
      obtain ⟨taken, split, isProgram⟩ := (reads_declarations _).taken result
      obtain rfl := declarations_rest (Nat.lt_succ_self _) result
      rw [List.append_nil] at split
      subst split
      have isSettled := Stmt.nearestElseAll_settledAll program
      have again := declarations_of_program isProgram.settled isSettled (Nat.le_succ _)
      rw [result] at again
      have same : program = Stmt.settledAll program := congrArg Prod.fst (Except.ok.inj again)
      rw [← same] at isSettled
      exact ⟨isProgram, isSettled⟩
    · exact absurd done (by simp)
  · intro isSettled
    have result := declarations_of_program isSettled.1 isSettled.2 (Nat.le_succ _)
    rw [ofTokens, result]

/-- A source whose tokens have a tree is looked at for an excess in that tree. -/
theorem read_of_ofTokens {source : List UInt8} {tree : List Stmt}
    (isTree : ofTokens (Source.tokens source) = .ok tree) :
    Source.read source =
      match Stmt.excessOfList? tree with
      | some excess => .error excess
      | none => .ok tree := by
  rw [Source.read, isTree]
  rfl

/-- The tree of a source is the settled tree of its tokens, if that keeps the limits. -/
theorem read_eq_ok_iff (source : List UInt8) (tree : List Stmt) :
    Source.read source = .ok tree ↔
      (IsProgram (Source.tokens source) tree ∧ Stmt.NearestElseAll tree) ∧ Stmt.KeepLimits tree := by
  rw [← ofTokens_eq_ok_iff, ← Stmt.excessOfList?_eq_none]
  cases result : ofTokens (Source.tokens source) with
  | error failure =>
    rw [Source.read, result]
    exact ⟨fun done => (nomatch done), fun both => nomatch both.1⟩
  | ok found =>
    rw [read_of_ofTokens result]
    cases excess : Stmt.excessOfList? found with
    | some diagnostic =>
      refine ⟨fun done => (nomatch done), fun both => ?_⟩
      obtain rfl : found = tree := Except.ok.inj both.1
      exact absurd both.2 (by simp [excess])
    | none =>
      refine ⟨fun done => ?_, fun both => both.1⟩
      obtain rfl : found = tree := Except.ok.inj done
      exact ⟨rfl, excess⟩

/-- The program of a source is that of its tree. -/
theorem ofSource_eq_ok_iff (source : List UInt8) (program : Program) :
    Program.ofSource source = .ok program ↔
      ∃ tree, Source.read source = .ok tree ∧ program = Stmt.nodes tree := by
  rw [Program.ofSource]
  cases Source.read source with
  | error diagnostic => simp [Except.map]
  | ok tree => simp [Except.map, eq_comm]

end Lox.Source
