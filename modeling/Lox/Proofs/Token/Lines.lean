import Lox.Token.Cursor

/-!
# Lines of tokens

A line break takes a byte, so no place in a source has a line beyond the number of its bytes. Every
token is on a line of the source, because its line is that of the place where it ends.
-/

namespace Lox

namespace Cursor

/-- The last line that a place can reach: its own if no line break is ahead of it, and one more
for each byte. -/
def lastLine (cursor : Cursor) : Nat :=
  cursor.line + cursor.rest.length

/-- Going on reaches no further line than the bytes allow. -/
theorem lastLine_advance (cursor : Cursor) (count : Nat) :
    (cursor.advance count).lastLine ≤ cursor.lastLine := by
  have breaks : (cursor.rest.take count).count newline ≤ (cursor.rest.take count).length :=
    List.count_le_length
  simp only [lastLine, advance, List.length_drop, List.length_take] at breaks ⊢
  omega

/-- A scan ends on a line that the place could reach. -/
theorem scan_lastLine (cursor : Cursor) :
    cursor.scan.after.lastLine ≤ cursor.lastLine ∧
      cursor.scan.token.line = cursor.scan.after.line := by
  have skipped : cursor.skipTrivia.lastLine ≤ cursor.lastLine := lastLine_advance _ _
  unfold scan
  dsimp only
  split
  · exact ⟨skipped, rfl⟩
  · exact ⟨Nat.le_trans (lastLine_advance _ _) skipped, rfl⟩

/-- Every scanned token is on a line that the place could reach. -/
theorem line_of_mem_scanAll {fuel : Nat} {cursor : Cursor} {scanned : Scanned}
    (isScanned : scanned ∈ cursor.scanAll fuel) :
    0 ≤ scanned.token.line ∧ scanned.token.line ≤ cursor.lastLine := by
  induction fuel generalizing cursor with
  | zero => exact absurd isScanned List.not_mem_nil
  | succ fuel ih =>
    obtain ⟨reached, line⟩ := scan_lastLine cursor
    have own : 0 ≤ cursor.scan.token.line ∧ cursor.scan.token.line ≤ cursor.lastLine := by
      rw [line]
      unfold lastLine at reached ⊢
      omega
    rw [scanAll] at isScanned
    split at isScanned
    · rw [List.mem_singleton.mp isScanned]
      exact own
    · obtain isFirst | isLater := List.mem_cons.mp isScanned
      · rw [isFirst]
        exact own
      · obtain ⟨positive, below⟩ := ih isLater
        exact ⟨positive, Int.le_trans below (Int.ofNat_le.mpr reached)⟩

end Cursor

/-- Every token of a source is on one of its lines, of which there is at most one more than bytes. -/
theorem line_of_mem_tokens {source : List UInt8} {token : Token} (isToken : token ∈ tokens source) :
    token.line.natAbs ≤ source.length + 1 := by
  obtain ⟨scanned, isScanned, rfl⟩ := List.mem_map.mp isToken
  obtain ⟨positive, below⟩ := Cursor.line_of_mem_scanAll isScanned
  simp only [Cursor.ofSource, Cursor.lastLine] at below
  omega

end Lox
