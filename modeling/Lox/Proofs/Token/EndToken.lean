import Lox.Source.Program

/-!
# The end token

Every token but the end token takes at least one byte, so scanning reaches the end of a source
with the fuel that its length gives. The end token is the last one, and there is no other.
-/

namespace Lox

/-- Whatever begins with a byte takes at least that byte. -/
theorem Lexeme.length_ofBytes_pos (first : UInt8) (rest : List UInt8) :
    0 < (Lexeme.ofBytes first rest).length := by
  unfold Lexeme.ofBytes
  split
  · exact Nat.succ_pos _
  · split
    · simp only [Lexeme.number, Lexeme.length]
      omega
    · split
      · unfold Lexeme.string
        dsimp only
        split <;> exact Nat.succ_pos _
      · split
        · exact Nat.one_pos
        · split <;> exact Nat.succ_pos _
        · exact Nat.one_pos

namespace Cursor

/-- A place further on has no more bytes ahead. -/
theorem length_rest_advance (cursor : Cursor) (count : Nat) :
    (cursor.advance count).rest.length = cursor.rest.length - count :=
  List.length_drop

/-- Every scan but one at the end takes a byte. -/
theorem scan_takes {cursor : Cursor} (goesOn : cursor.scan.token.kind ≠ .endOfFile) :
    cursor.scan.after.rest.length < cursor.rest.length := by
  have skipped : cursor.skipTrivia.rest.length ≤ cursor.rest.length := by
    rw [skipTrivia, length_rest_advance]
    omega
  unfold scan at goesOn ⊢
  dsimp only at goesOn ⊢
  split at goesOn
  · exact absurd rfl goesOn
  · next first rest ahead =>
    have positive := Lexeme.length_ofBytes_pos first rest
    rw [ahead] at skipped
    simp only [length_rest_advance, ahead, List.length_cons] at skipped ⊢
    omega

/-- At the end the end token is all that is scanned. -/
theorem scanAll_of_endOfFile {cursor : Cursor} (isEnd : cursor.scan.token.kind = .endOfFile)
    (fuel : Nat) : cursor.scanAll (fuel + 1) = [cursor.scan] :=
  if_pos isEnd

/-- Before the end a token is scanned, and then those behind it. -/
theorem scanAll_of_ne_endOfFile {cursor : Cursor} (goesOn : cursor.scan.token.kind ≠ .endOfFile)
    (fuel : Nat) : cursor.scanAll (fuel + 1) = cursor.scan :: cursor.scan.after.scanAll fuel :=
  if_neg goesOn

/-- With more fuel than bytes, scanning ends with the end token and yields no other one. -/
theorem scanAll_eq (fuel : Nat) (cursor : Cursor) (enough : cursor.rest.length < fuel) :
    ∃ scanned last, cursor.scanAll fuel = scanned ++ [last] ∧ last.token.kind = .endOfFile ∧
      ∀ before ∈ scanned, before.token.kind ≠ .endOfFile := by
  induction fuel generalizing cursor with
  | zero => exact absurd enough (Nat.not_lt_zero _)
  | succ fuel ih =>
    by_cases isEnd : cursor.scan.token.kind = .endOfFile
    · refine ⟨[], cursor.scan, ?_, isEnd, by simp⟩
      rw [scanAll_of_endOfFile isEnd, List.nil_append]
    · have shorter := scan_takes isEnd
      obtain ⟨scanned, last, whole, isLast, noEnd⟩ := ih cursor.scan.after (by omega)
      refine ⟨cursor.scan :: scanned, last, ?_, isLast, ?_⟩
      · rw [scanAll_of_ne_endOfFile isEnd, whole, List.cons_append]
      · simpa [isEnd] using noEnd

end Cursor

/-- The tokens of a source are those up to its end and one end token. -/
theorem tokens_eq (source : List UInt8) :
    ∃ last, tokens source = Source.tokens source ++ [last] ∧ last.kind = .endOfFile ∧
      ∀ token ∈ Source.tokens source, token.kind ≠ .endOfFile := by
  obtain ⟨scanned, last, whole, isLast, noEnd⟩ :=
    Cursor.scanAll_eq (source.length + 1) (Cursor.ofSource source) (Nat.lt_succ_self _)
  have split : tokens source = scanned.map Scanned.token ++ [last.token] := by
    rw [tokens, scanSource, whole, List.map_append, List.map_singleton]
  have before : Source.tokens source = scanned.map Scanned.token := by
    rw [Source.tokens, split, List.dropLast_concat]
  refine ⟨last.token, by rw [split, before], isLast, ?_⟩
  rw [before]
  simpa using noEnd

end Lox
