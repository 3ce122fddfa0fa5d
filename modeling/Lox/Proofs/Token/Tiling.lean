import Lox.Proofs.Token.Ascii
import Lox.Proofs.Token.EndToken

/-!
# Tokens tile a source

A scan goes from one place in a source to a later one, and what it leaves between the two is trivia
and then a lexeme. The line of every place is that of the line breaks before it, so lines need no
bookkeeping of their own.

What one scan does to a place is shown first. Calling the scanner again and again is then followed to
the end of the source, where it stays.
-/

namespace Lox

/-- Blanks and comments, each of which runs up to a line break or to the end of all bytes. The first
bytes are skipped, and the others come behind them. -/
inductive Trivia : (skipped rest : List UInt8) → Prop
  | nil (rest : List UInt8) : Trivia [] rest
  | blank {byte : UInt8} {skipped rest : List UInt8} :
      isBlank byte → Trivia skipped rest → Trivia (byte :: skipped) rest
  | comment {text skipped rest : List UInt8} :
      newline ∉ text → (∀ byte ∈ (skipped ++ rest).head?, byte = newline) → Trivia skipped rest →
      Trivia ('/'.toUInt8 :: '/'.toUInt8 :: text ++ skipped) rest

/-- A blank is skipped. -/
theorem triviaLength_blank {byte : UInt8} (isBlank : Lox.isBlank byte) (rest : List UInt8) :
    triviaLength false (byte :: rest) = triviaLength false rest + 1 := by
  rw [triviaLength, if_pos isBlank, Nat.add_comm]

/-- A slash before another begins a comment. -/
theorem triviaLength_slash {byte : UInt8} {rest : List UInt8}
    (isComment : byte = '/'.toUInt8 ∧ rest.head? = some '/'.toUInt8) :
    triviaLength false (byte :: rest) = 1 + triviaLength true rest := by
  obtain ⟨rfl, isSecond⟩ := isComment
  rw [triviaLength, if_neg (by decide), if_pos (by simp [isSecond])]

/-- Two slashes begin a comment. -/
theorem triviaLength_slashes (rest : List UInt8) :
    triviaLength false ('/'.toUInt8 :: '/'.toUInt8 :: rest) = triviaLength true rest + 2 := by
  have second : triviaLength true ('/'.toUInt8 :: rest) = 1 + triviaLength true rest := rfl
  rw [triviaLength_slash ⟨rfl, rfl⟩, second]
  omega

/-- Nothing is skipped before a byte that begins neither a blank nor a comment. -/
theorem triviaLength_other {byte : UInt8} {rest : List UInt8} (noBlank : ¬isBlank byte)
    (noComment : ¬(byte = '/'.toUInt8 ∧ rest.head? = some '/'.toUInt8)) :
    triviaLength false (byte :: rest) = 0 := by
  rw [triviaLength, if_neg noBlank, if_neg (by simpa using noComment)]

/-- What is skipped is there. -/
theorem triviaLength_le (inComment : Bool) (bytes : List UInt8) :
    triviaLength inComment bytes ≤ bytes.length := by
  fun_induction triviaLength inComment bytes with
  | case1 => exact Nat.le_refl 0
  | case2 byte rest ih | case3 byte rest _ ih | case4 byte rest _ _ ih =>
    rw [List.length_cons]
    omega
  | case5 => exact Nat.zero_le _

/-- Nothing is skipped behind what has been skipped. -/
theorem triviaLength_drop (inComment : Bool) (bytes : List UInt8) :
    triviaLength false (bytes.drop (triviaLength inComment bytes)) = 0 := by
  fun_induction triviaLength inComment bytes with
  | case1 => rfl
  | case2 byte rest ih | case3 byte rest _ ih | case4 byte rest _ _ ih =>
    rwa [Nat.add_comm, List.drop_succ_cons]
  | case5 byte rest noBlank noComment =>
    rw [List.drop_zero, triviaLength, if_neg noBlank, if_neg noComment]

/-- What is skipped inside a comment is the rest of the comment and then trivia. -/
theorem trivia_in_comment (bytes : List UInt8)
    (trivia : ∀ more, more <:+ bytes → Trivia (more.take (triviaLength false more))
      (more.drop (triviaLength false more))) :
    ∃ text skipped, newline ∉ text ∧ bytes.take (triviaLength true bytes) = text ++ skipped ∧
      (∀ byte ∈ (skipped ++ bytes.drop (triviaLength true bytes)).head?, byte = newline) ∧
      Trivia skipped (bytes.drop (triviaLength true bytes)) := by
  induction bytes with
  | nil => exact ⟨[], [], List.not_mem_nil, rfl, fun _ => nofun, .nil []⟩
  | cons byte rest ih =>
    have length : triviaLength true (byte :: rest) = triviaLength (byte != newline) rest + 1 :=
      Nat.add_comm 1 _
    by_cases isBreak : byte = newline
    · have outside := trivia rest (List.suffix_cons byte rest)
      rw [length, isBreak, bne_self_eq_false, List.take_succ_cons, List.drop_succ_cons]
      exact ⟨[], _, List.not_mem_nil, rfl, fun _ isFirst => (Option.some.inj isFirst).symm,
        .blank (by decide) outside⟩
    · obtain ⟨text, skipped, noBreak, split, ends, isTrivia⟩ := ih fun more isSuffix =>
        trivia more (isSuffix.trans (List.suffix_cons byte rest))
      have goesOn : (byte != newline) = true := bne_iff_ne.mpr isBreak
      rw [length, goesOn, List.take_succ_cons, List.drop_succ_cons, split]
      have noBreak' : newline ∉ byte :: text := by simp [Ne.symm isBreak, noBreak]
      exact ⟨byte :: text, skipped, noBreak', rfl, ends, isTrivia⟩

/-- What is skipped before a token is trivia. -/
theorem trivia_take (bytes : List UInt8) :
    Trivia (bytes.take (triviaLength false bytes)) (bytes.drop (triviaLength false bytes)) := by
  induction size : bytes.length using Nat.strongRecOn generalizing bytes with
  | ind _ ih =>
    cases bytes with
    | nil => exact .nil []
    | cons byte rest =>
      rw [List.length_cons] at size
      by_cases isBlank : Lox.isBlank byte
      · rw [triviaLength_blank isBlank, List.take_succ_cons, List.drop_succ_cons]
        exact .blank isBlank (ih _ (by omega) rest rfl)
      · by_cases isComment : byte = '/'.toUInt8 ∧ rest.head? = some '/'.toUInt8
        · obtain ⟨rfl, isSecond⟩ := isComment
          obtain ⟨more, rfl⟩ := List.head?_eq_some_iff.mp isSecond
          rw [List.length_cons] at size
          -- Behind the comment a shorter rest is skipped, which is why the induction is strong.
          obtain ⟨text, skipped, noBreak, split, ends, isTrivia⟩ :=
            trivia_in_comment more fun others isSuffix =>
              ih _ (by have := isSuffix.length_le; omega) others rfl
          rw [triviaLength_slashes, List.take_succ_cons, List.take_succ_cons, List.drop_succ_cons,
            List.drop_succ_cons, split]
          exact .comment noBreak ends isTrivia
        · rw [triviaLength_other isBlank isComment]
          exact .nil _

namespace Lexeme

/-- A lexeme is no longer than the bytes that it is found in. -/
theorem length_ofBytes_le (first : UInt8) (rest : List UInt8) :
    (ofBytes first rest).length ≤ (first :: rest).length := by
  have inside (test : UInt8 → Bool) (bytes : List UInt8) :
      (bytes.takeWhile test).length ≤ bytes.length := (List.takeWhile_prefix test).length_le
  unfold ofBytes
  split
  · exact Nat.succ_le_succ (inside _ _)
  · split
    · have whole := inside isDigit rest
      have fraction : fractionLength (rest.drop (rest.takeWhile isDigit).length) ≤
          (rest.drop (rest.takeWhile isDigit).length).length := by
        unfold fractionLength
        split
        · next point digit more behind =>
          have digits := inside isDigit more
          rw [behind]
          split
          · simp only [List.length_cons]
            omega
          · exact Nat.zero_le _
        · exact Nat.zero_le _
      simp only [number, length, List.length_drop, List.length_cons] at fraction ⊢
      omega
    · split
      · have before := inside (· ≠ '"'.toUInt8) rest
        unfold string
        dsimp only
        split
        · exact Nat.succ_le_succ before
        · next isClosed =>
          rw [List.isEmpty_iff, List.drop_eq_nil_iff] at isClosed
          simp only [length, List.length_cons]
          omega
      · split
        · exact Nat.succ_le_succ (Nat.zero_le _)
        · split
          · next isEqual =>
            obtain ⟨more, rfl⟩ := List.head?_eq_some_iff.mp isEqual
            exact Nat.succ_le_succ (Nat.succ_le_succ (Nat.zero_le _))
          · exact Nat.succ_le_succ (Nat.zero_le _)
        · exact Nat.succ_le_succ (Nat.zero_le _)

/-- The bytes of a token that reports no trouble are those taken. -/
theorem lexeme_of_kind_ne_error {found : Lexeme} (isToken : found.kind ≠ .error)
    (taken : List UInt8) : found.lexeme taken = taken := by
  cases found with
  | token kind length => rfl
  | unterminated length => exact absurd rfl isToken
  | unexpected => exact absurd rfl isToken

/-- A word is an identifier or one of the keywords. -/
theorem ofWord_mem (word : List UInt8) :
    Kind.ofWord word ∈ Kind.identifier :: Kind.keywords.map Prod.snd := by
  unfold Kind.ofWord
  generalize found : Kind.keywords.findSome? _ = result
  cases result with
  | none => exact List.mem_cons_self
  | some kind =>
    obtain ⟨keyword, isKeyword, isKind⟩ := List.exists_of_findSome?_eq_some found
    refine List.mem_cons_of_mem _ (List.mem_map.mpr ⟨keyword, isKeyword, ?_⟩)
    dsimp only at isKind
    split at isKind
    · exact Option.some.inj isKind
    · cases isKind

/-- No byte is an end token. -/
theorem kind_of_single? (byte : UInt8) : ∀ kind ∈ single? byte, kind ≠ .endOfFile :=
  forall_byte (P := fun byte => ∀ kind ∈ single? byte, kind ≠ .endOfFile) (by decide +kernel) byte

/-- No byte with or without an equals sign is an end token. -/
theorem kinds_of_extensible? (byte : UInt8) :
    ∀ kinds ∈ extensible? byte, kinds.1 ≠ .endOfFile ∧ kinds.2 ≠ .endOfFile :=
  forall_byte (P := fun byte => ∀ kinds ∈ extensible? byte,
    kinds.1 ≠ .endOfFile ∧ kinds.2 ≠ .endOfFile) (by decide +kernel) byte

/-- No lexeme is an end token. -/
theorem kind_ofBytes_ne_endOfFile (first : UInt8) (rest : List UInt8) :
    (ofBytes first rest).kind ≠ .endOfFile := by
  unfold ofBytes
  split
  · intro isEnd
    have isWord := ofWord_mem (first :: rest.takeWhile isWordByte)
    rw [show Kind.ofWord _ = _ from isEnd] at isWord
    exact absurd isWord (by decide)
  · split
    · exact nofun
    · split
      · unfold string
        dsimp only
        split <;> exact nofun
      · split
        · next kind isSingle => exact kind_of_single? first kind isSingle
        · next plain extended _ isExtensible =>
          have kinds := kinds_of_extensible? first (plain, extended) isExtensible
          split
          · exact kinds.2
          · exact kinds.1
        · exact nofun

end Lexeme

namespace Cursor

variable {source : List UInt8} {cursor : Cursor}

/-- A place in a source: the bytes ahead are those behind the first ones, and its line is one more
than the number of line breaks among the first ones. -/
structure Within (source : List UInt8) (cursor : Cursor) : Prop where
  inside : cursor.offset ≤ source.length
  rest : cursor.rest = source.drop cursor.offset
  line : cursor.line = 1 + (source.take cursor.offset).count newline

/-- A source begins at a place in it. -/
theorem within_ofSource (source : List UInt8) : Within source (ofSource source) :=
  ⟨Nat.zero_le _, rfl, rfl⟩

/-- The bytes ahead of a place are as many as there are behind it in the source. -/
theorem Within.length_rest (within : Within source cursor) :
    cursor.offset + cursor.rest.length = source.length := by
  rw [within.rest, List.length_drop]
  have inside := within.inside
  omega

/-- Going on by no more bytes than are ahead leads to a place. -/
theorem Within.advance (within : Within source cursor) {count : Nat}
    (enough : count ≤ cursor.rest.length) : Within source (cursor.advance count) where
  inside := Nat.le_trans (Nat.add_le_add_left enough _) (Nat.le_of_eq within.length_rest)
  rest := by
    change cursor.rest.drop count = _
    rw [within.rest, List.drop_drop]
    rfl
  line := by
    change cursor.line + (cursor.rest.take count).count newline =
      1 + (source.take (cursor.offset + count)).count newline
    rw [List.take_add, List.count_append, within.line, within.rest, Nat.add_assoc]

/-- What is skipped before a token leads to a place. -/
theorem Within.skipTrivia (within : Within source cursor) : Within source cursor.skipTrivia :=
  within.advance (triviaLength_le false _)

end Cursor

/-- A scanned token with what it leaves behind a place in a source: from there trivia up to its start,
and from its start its lexeme up to the place after it. -/
structure Tile (source : List UInt8) (before : Nat) (scanned : Scanned) : Prop where
  before_le_start : before ≤ scanned.start
  start_le_current : scanned.start ≤ scanned.after.offset
  after : scanned.after.Within source
  trivia : Trivia ((source.drop before).take (scanned.start - before)) (source.drop scanned.start)
  lexeme : scanned.token.kind ≠ .error →
    scanned.token.lexeme =
      (source.drop scanned.start).take (scanned.after.offset - scanned.start)
  line : scanned.token.line = scanned.after.line

namespace Cursor

variable {source : List UInt8} {cursor : Cursor}

/-- At the end of a source a scan takes nothing. -/
theorem scan_of_nil (isEnd : cursor.skipTrivia.rest = []) :
    cursor.scan =
      ⟨⟨.endOfFile, [], cursor.skipTrivia.line⟩, cursor.skipTrivia.offset, cursor.skipTrivia⟩ := by
  rw [scan, isEnd]

/-- Before the end of a source a scan takes the lexeme that is found behind the trivia. -/
theorem scan_of_cons {first : UInt8} {rest : List UInt8}
    (ahead : cursor.skipTrivia.rest = first :: rest) :
    let found := Lexeme.ofBytes first rest
    let after := cursor.skipTrivia.advance found.length
    cursor.scan =
      ⟨⟨found.kind, found.lexeme ((first :: rest).take found.length), after.line⟩,
        cursor.skipTrivia.offset, after⟩ := by
  rw [scan, ahead]

/-- The end token is scanned where nothing but trivia is ahead. -/
theorem kind_scan_eq_endOfFile :
    cursor.scan.token.kind = .endOfFile ↔ cursor.skipTrivia.rest = [] := by
  cases ahead : cursor.skipTrivia.rest with
  | nil =>
    rw [scan_of_nil ahead]
    exact iff_of_true rfl rfl
  | cons first rest =>
    rw [scan_of_cons ahead]
    simpa using Lexeme.kind_ofBytes_ne_endOfFile first rest

/-- What a scan leaves behind a place in a source is a tile. -/
theorem Within.tile_scan (within : Within source cursor) :
    Tile source cursor.offset cursor.scan := by
  have start := within.skipTrivia
  have skipped : cursor.skipTrivia.offset = cursor.offset + triviaLength false cursor.rest := rfl
  have trivia : Trivia
      ((source.drop cursor.offset).take (cursor.skipTrivia.offset - cursor.offset))
      (source.drop cursor.skipTrivia.offset) := by
    rw [skipped, Nat.add_sub_cancel_left, ← List.drop_drop, ← within.rest]
    exact trivia_take cursor.rest
  cases ahead : cursor.skipTrivia.rest with
  | nil =>
    rw [scan_of_nil ahead]
    refine ⟨Nat.le_add_right _ _, Nat.le_refl _, start, trivia, fun _ => ?_, rfl⟩
    rw [Nat.sub_self, List.take_zero]
  | cons first rest =>
    have shorter := Lexeme.length_ofBytes_le first rest
    rw [← ahead] at shorter
    rw [scan_of_cons ahead]
    refine ⟨Nat.le_add_right _ _, Nat.le_add_right _ _, start.advance shorter, trivia,
      fun isToken => ?_, rfl⟩
    change Lexeme.lexeme _ _ = (source.drop cursor.skipTrivia.offset).take
      (cursor.skipTrivia.offset + (Lexeme.ofBytes first rest).length - cursor.skipTrivia.offset)
    rw [Lexeme.lexeme_of_kind_ne_error isToken, Nat.add_sub_cancel_left, ← start.rest, ahead]

/-- A scan before the end goes on by at least one byte. -/
theorem offset_lt_scan (goesOn : cursor.scan.token.kind ≠ .endOfFile) :
    cursor.offset < cursor.scan.after.offset := by
  rw [ne_eq, kind_scan_eq_endOfFile] at goesOn
  obtain ⟨first, rest, ahead⟩ := List.exists_cons_of_ne_nil goesOn
  have positive := Lexeme.length_ofBytes_pos first rest
  rw [scan_of_cons ahead]
  change cursor.offset < cursor.offset + triviaLength false cursor.rest +
    (Lexeme.ofBytes first rest).length
  omega

/-- At the end of a source a scan goes there, and so does every further one. -/
theorem Within.scan_of_endOfFile (within : Within source cursor)
    (isEnd : cursor.scan.token.kind = .endOfFile) :
    cursor.scan =
      ⟨⟨.endOfFile, [], (1 + source.count newline : Nat)⟩, source.length,
        ⟨[], source.length, 1 + source.count newline⟩⟩ := by
  have start := within.skipTrivia
  have nothing := kind_scan_eq_endOfFile.mp isEnd
  have offset : cursor.skipTrivia.offset = source.length := by
    have length := start.length_rest
    rwa [nothing, List.length_nil, Nat.add_zero] at length
  have line : cursor.skipTrivia.line = 1 + source.count newline := by
    rw [start.line, offset, List.take_length]
  rw [scan_of_nil nothing]
  have place : cursor.skipTrivia = ⟨[], source.length, 1 + source.count newline⟩ := by
    rw [← nothing, ← offset, ← line]
  rw [place]

/-- The places between calls of a scanner, one after another and without end. -/
def place (cursor : Cursor) : (calls : Nat) → Cursor
  | 0 => cursor
  | calls + 1 => (cursor.place calls).scan.after

/-- Every call of a scanner leads to a place. -/
theorem Within.place (within : Within source cursor) (calls : Nat) :
    Within source (cursor.place calls) := by
  induction calls with
  | zero => exact within
  | succ calls ih => exact ih.tile_scan.after

/-- Places of later calls are those of a later place. -/
theorem place_succ (cursor : Cursor) (calls : Nat) :
    cursor.place (calls + 1) = cursor.scan.after.place calls := by
  induction calls with
  | zero => rfl
  | succ calls ih => exact congrArg (fun place => place.scan.after) ih

end Cursor

end Lox
