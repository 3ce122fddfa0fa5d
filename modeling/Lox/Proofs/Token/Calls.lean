import Mathlib.Data.Nat.Find
import Lox.Proofs.Token.Bytewise

/-!
# Calls of a scanner

A scanner is called again and again. Each call before the end takes at least one byte, so the end
token comes after no more calls than there are bytes, and from then on nothing changes.

The main statement ties the places between the calls to the source: every call leaves a tile, no call
reads outside of the source, and the tokens of a source are those of the calls up to the end token.
-/

namespace Lox

namespace Cursor

variable {source : List UInt8} {cursor : Cursor}

/-- Calls before the end take at least a byte each. -/
theorem add_le_offset_place (cursor : Cursor) (calls : Nat)
    (goesOn : ∀ call < calls, (cursor.place call).scan.token.kind ≠ .endOfFile) :
    cursor.offset + calls ≤ (cursor.place calls).offset := by
  induction calls with
  | zero => exact Nat.le_refl _
  | succ calls ih =>
    have before := ih fun call isBefore => goesOn call (Nat.lt_succ_of_lt isBefore)
    exact Nat.lt_of_le_of_lt before (offset_lt_scan (goesOn calls (Nat.lt_succ_self calls)))

/-- The end token comes after no more calls than there are bytes ahead. -/
theorem Within.exists_last (within : Within source cursor) :
    ∃ last ≤ cursor.rest.length,
      (∀ call < last, (cursor.place call).scan.token.kind ≠ .endOfFile) ∧
        (cursor.place last).scan.token.kind = .endOfFile := by
  have length := within.length_rest
  have ends : ∃ last, (cursor.place last).scan.token.kind = .endOfFile := by
    -- If it never came, one more call than there are bytes would go beyond the end.
    by_contra goesOn
    have beyond := add_le_offset_place cursor (cursor.rest.length + 1)
      fun call _ isEnd => goesOn ⟨call, isEnd⟩
    have inside := (within.place (cursor.rest.length + 1)).inside
    omega
  have goesOn : ∀ call < Nat.find ends, (cursor.place call).scan.token.kind ≠ .endOfFile :=
    fun _ => Nat.find_min ends
  have reached := add_le_offset_place cursor _ goesOn
  have inside := (within.place (Nat.find ends)).inside
  exact ⟨Nat.find ends, by omega, goesOn, Nat.find_spec ends⟩

/-- The tokens from a place up to the end of the source are those of the calls. -/
theorem scanAll_eq_map_place (cursor : Cursor) {fuel last : Nat} (enough : last < fuel)
    (goesOn : ∀ call < last, (cursor.place call).scan.token.kind ≠ .endOfFile)
    (isEnd : (cursor.place last).scan.token.kind = .endOfFile) :
    cursor.scanAll fuel = (List.range (last + 1)).map fun call => (cursor.place call).scan := by
  induction last generalizing cursor fuel with
  | zero =>
    obtain ⟨fuel, rfl⟩ := Nat.exists_eq_add_of_lt enough
    rw [Nat.zero_add]
    exact scanAll_of_endOfFile isEnd fuel
  | succ last ih =>
    obtain ⟨fuel, rfl⟩ := Nat.exists_eq_add_of_lt (Nat.zero_lt_of_lt enough)
    have others := @ih cursor.scan.after fuel (by omega)
      (fun call isBefore => by
        rw [← place_succ]
        exact goesOn (call + 1) (Nat.succ_lt_succ isBefore))
      (by rwa [← place_succ])
    have first : cursor.scan.token.kind ≠ .endOfFile := goesOn 0 (Nat.succ_pos last)
    rw [Nat.zero_add, scanAll_of_ne_endOfFile first, List.range_succ_eq_map, List.map_cons,
      List.map_map, others]
    refine congrArg (cursor.scan :: ·) ?_
    exact List.map_congr_left fun call _ => congrArg scan (place_succ cursor call).symm

/-- No call goes back to an earlier line. -/
theorem Within.line_le_scan (within : Within source cursor) :
    cursor.line ≤ cursor.scan.after.line := by
  have tile := within.tile_scan
  rw [within.line, tile.after.line]
  have isLater := Nat.le_trans tile.before_le_start tile.start_le_current
  exact Nat.add_le_add_left ((List.take_prefix_take_left isLater).sublist.count_le newline) 1

end Cursor

/-- Calling a scanner from the start of a source again and again reaches the end token after no more
calls than one for each byte and one for the end. Every earlier call takes at least a byte, and from
the end token on nothing changes any more. Every call leaves a tile, stays on its line or goes to a
later one, and reads the source byte by byte without a position outside of it. -/
theorem scanner_calls_tile (source : List UInt8) :
    let place := (Cursor.ofSource source).place
    let behind : Cursor := ⟨[], source.length, 1 + source.count newline⟩
    let endToken : Token := ⟨.endOfFile, [], behind.line⟩
    (∃ last ≤ source.length,
      (∀ call < last, (place call).scan.token.kind ≠ .endOfFile ∧
        (place call).offset < (place call).scan.after.offset) ∧
      (∀ call ≥ last, (place call).scan = ⟨endToken, source.length, behind⟩) ∧
      scanSource source = (List.range (last + 1)).map fun call => (place call).scan) ∧
    (∀ call, Tile source (place call).offset (place call).scan ∧
      (place call).line ≤ (place call).scan.after.line ∧
      ∀ start, ((place call).head start).scan source =
        some ((place call).scan.token, (place call).scan.after.head (place call).scan.start)) ∧
    (behind.head source.length).scan source = some (endToken, behind.head source.length) := by
  intro place behind endToken
  have within := Cursor.within_ofSource source
  obtain ⟨last, lastLe, goesOn, isEnd⟩ := within.exists_last
  have isBehind : behind.scan.token.kind = .endOfFile := Cursor.kind_scan_eq_endOfFile.mpr rfl
  have atEnd (further : Nat) :
      (place (last + further)).scan = ⟨endToken, source.length, behind⟩ := by
    induction further with
    | zero => exact (within.place last).scan_of_endOfFile isEnd
    | succ further ih =>
      refine (within.place (last + (further + 1))).scan_of_endOfFile ?_
      have here : place (last + (further + 1)) = behind := congrArg Scanned.after ih
      exact (congrArg (fun cursor => cursor.scan.token.kind) here).trans isBehind
  refine ⟨⟨last, lastLe, fun call isBefore => ⟨goesOn call isBefore, ?_⟩, fun call isBehind => ?_, ?_⟩,
    fun call => ?_, ?_⟩
  · exact Cursor.offset_lt_scan (goesOn call isBefore)
  · obtain ⟨further, rfl⟩ := Nat.exists_eq_add_of_le isBehind
    exact atEnd further
  · exact Cursor.scanAll_eq_map_place _ (Nat.lt_succ_of_le lastLe) goesOn isEnd
  · exact ⟨(within.place call).tile_scan, (within.place call).line_le_scan,
      (within.place call).scan_head⟩
  · have here : place (last + 1) = behind := congrArg Scanned.after (atEnd 0)
    have isPlace : behind.Within source := here ▸ within.place (last + 1)
    rw [isPlace.scan_head, isPlace.scan_of_endOfFile isBehind]

end Lox
