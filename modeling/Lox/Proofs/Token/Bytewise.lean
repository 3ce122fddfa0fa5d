import Lox.Proofs.Token.Tiling

/-!
# Reading byte by byte

A head reads a source by position, one byte after another, and looks at most one byte ahead of the
next one. Reading a position outside of the source fails. From the end on a zero byte is looked at,
which stops every loop, and a zero byte in the source is no end.

A head scans exactly the tokens that are found at the front of the bytes ahead, and it never fails.
So no scan reads outside of its source.
-/

namespace Lox

/-- A scanner that reads by position: where the lexeme starts, the next position, and the line. -/
structure Head where
  start : Nat
  current : Nat
  line : Nat
  deriving DecidableEq, Repr

namespace Head

variable (source : List UInt8)

/-- There is no next byte. -/
def atEnd (head : Head) : Bool :=
  source.length ≤ head.current

/-- Reads the next byte, if it is one of the source. -/
def advance (head : Head) : Option (UInt8 × Head) := do
  let byte ← source[head.current]?
  some (byte, { head with current := head.current + 1 })

/-- Looks at the byte some positions ahead, which is zero from the end of the source on. -/
def peek (ahead : Nat) (head : Head) : Option UInt8 :=
  if source.length ≤ head.current + ahead then some 0 else source[head.current + ahead]?

/-- Takes the next byte if it is the expected one. -/
def accept (expected : UInt8) (head : Head) : Option (Bool × Head) :=
  if head.atEnd source then some (false, head)
  else do
    let byte ← source[head.current]?
    if byte = expected then some (true, { head with current := head.current + 1 })
    else some (false, head)

/-- Goes on while the next byte passes a test. -/
def passWhile (test : UInt8 → Bool) : (fuel : Nat) → Head → Option Head
  | 0, _ => none
  | fuel + 1, head => do
    if test (← head.peek source 0) then do
      let (_, next) ← head.advance source
      passWhile test fuel next
    else some head

/-- Goes on up to a byte or the end, and counts the line breaks. -/
def passUntil (stop : UInt8) : (fuel : Nat) → Head → Option Head
  | 0, _ => none
  | fuel + 1, head => do
    let byte ← head.peek source 0
    if byte ≠ stop ∧ head.atEnd source = false then do
      let (_, next) ← head.advance source
      passUntil stop fuel { next with line := next.line + if byte = newline then 1 else 0 }
    else some head

/-- Goes on behind blanks and comments. The line break that ends a comment is left as a blank. -/
def skipTrivia : (fuel : Nat) → Head → Option Head
  | 0, _ => none
  | fuel + 1, head =>
    if head.atEnd source then some head
    else do
      let byte ← head.peek source 0
      if isBlank byte then do
        let (_, next) ← head.advance source
        skipTrivia fuel { next with line := next.line + if byte = newline then 1 else 0 }
      else if byte = '/'.toUInt8 then do
        if (← head.peek source 1) = '/'.toUInt8 then do
          skipTrivia fuel (← head.passUntil source newline (source.length + 1))
        else some head
      else some head

/-- The bytes from the start of the lexeme up to the next position. -/
def taken (head : Head) : List UInt8 :=
  (source.drop head.start).take (head.current - head.start)

/-- The token of the bytes that were taken. -/
def token (kind : Kind) (head : Head) : Token × Head :=
  (⟨kind, head.taken source, head.line⟩, head)

/-- The token that reports trouble. -/
def trouble (message : Text) (head : Head) : Token × Head :=
  (⟨.error, message.encode, head.line⟩, head)

/-- The rest of a word. -/
def word (head : Head) : Option (Token × Head) := do
  let head ← head.passWhile source isWordByte (source.length + 1)
  some (head.token source (Kind.ofWord (head.taken source)))

/-- The rest of a number, with a fraction only where a digit follows the point. -/
def number (head : Head) : Option (Token × Head) := do
  let head ← head.passWhile source isDigit (source.length + 1)
  if (← head.peek source 0) = '.'.toUInt8 then do
    if isDigit (← head.peek source 1) then do
      let (_, head) ← head.advance source
      let head ← head.passWhile source isDigit (source.length + 1)
      some (head.token source .number)
    else some (head.token source .number)
  else some (head.token source .number)

/-- The rest of a string. -/
def string (head : Head) : Option (Token × Head) := do
  let head ← head.passUntil source '"'.toUInt8 (source.length + 1)
  if head.atEnd source then some (head.trouble "Unterminated string.")
  else do
    let (_, head) ← head.advance source
    some (head.token source .string)

/-- The rest of the token that begins with a byte. -/
def lexeme (first : UInt8) (head : Head) : Option (Token × Head) :=
  if isLetter first then head.word source
  else if isDigit first then head.number source
  else
    match Lexeme.single? first, Lexeme.extensible? first with
    | some kind, _ => some (head.token source kind)
    | none, some (plain, extended) => do
      let (isExtended, head) ← head.accept source '='.toUInt8
      some (head.token source (if isExtended then extended else plain))
    | none, none =>
      if first = '"'.toUInt8 then head.string source
      else some (head.trouble "Unexpected character.")

/-- The next token. -/
def scan (head : Head) : Option (Token × Head) := do
  let head ← head.skipTrivia source (source.length + 1)
  let head := { head with start := head.current }
  if head.atEnd source then some (head.token source .endOfFile)
  else do
    let (first, head) ← head.advance source
    head.lexeme source first

end Head

/-- The head at a place, with a lexeme that starts somewhere. -/
def Cursor.head (cursor : Cursor) (start : Nat) : Head :=
  ⟨start, cursor.offset, cursor.line⟩

namespace Cursor

/-- Going on twice is going on by both counts. -/
theorem advance_advance (cursor : Cursor) (first second : Nat) :
    (cursor.advance first).advance second = cursor.advance (first + second) := by
  unfold advance
  simp only [List.drop_drop, List.take_add, List.count_append, Nat.add_assoc]

/-- Going on is going on by one byte and then by the others. -/
theorem advance_succ (cursor : Cursor) (count : Nat) :
    cursor.advance (count + 1) = (cursor.advance 1).advance count := by
  rw [advance_advance, Nat.add_comm]

/-- Going on by one byte counts it as a line break if it is one. -/
theorem advance_one {cursor : Cursor} {byte : UInt8} {rest : List UInt8}
    (ahead : cursor.rest = byte :: rest) :
    cursor.advance 1 =
      ⟨rest, cursor.offset + 1, cursor.line + if byte = newline then 1 else 0⟩ := by
  unfold advance
  rw [ahead]
  by_cases isBreak : byte = newline <;> simp [isBreak]

variable {source : List UInt8} {cursor : Cursor} {byte : UInt8} {rest : List UInt8}

/-- The byte some positions ahead in the source is that of the bytes ahead. -/
theorem Within.getElem? (within : Within source cursor) (ahead : Nat) :
    source[cursor.offset + ahead]? = cursor.rest[ahead]? := by
  rw [within.rest, List.getElem?_drop]

/-- There is no next byte where there are no bytes ahead. -/
theorem Within.atEnd_head (within : Within source cursor) (start : Nat) :
    (cursor.head start).atEnd source = cursor.rest.isEmpty := by
  have length := within.length_rest
  unfold Head.atEnd head
  generalize cursor.rest = bytes at length
  cases bytes with
  | nil => simpa using Nat.le_of_eq length.symm
  | cons byte rest =>
    rw [List.length_cons] at length
    simp only [List.isEmpty_cons, decide_eq_false_iff_not]
    omega

/-- What is looked at is a byte ahead, or zero. -/
theorem Within.peek_head (within : Within source cursor) (start ahead : Nat) :
    (cursor.head start).peek source ahead = some (cursor.rest[ahead]?.getD 0) := by
  have length := within.length_rest
  have found := within.getElem? ahead
  unfold Head.peek head
  dsimp only
  split
  · next atEnd => rw [List.getElem?_eq_none (by omega)]; rfl
  · next inside =>
    rw [found, List.getElem?_eq_getElem (by omega)]
    rfl

/-- The next byte is read. -/
theorem Within.advance_head (within : Within source cursor) (ahead : cursor.rest = byte :: rest)
    (start : Nat) :
    (cursor.head start).advance source =
      some (byte, ⟨start, cursor.offset + 1, cursor.line⟩) := by
  have found := within.getElem? 0
  rw [ahead] at found
  unfold Head.advance head
  dsimp only
  rw [show source[cursor.offset]? = some byte from found]
  rfl

/-- One byte ahead may be passed. -/
theorem Within.advance_cons (within : Within source cursor) (ahead : cursor.rest = byte :: rest) :
    Within source (cursor.advance 1) :=
  within.advance (by rw [ahead]; exact Nat.succ_le_succ (Nat.zero_le _))

/-- Going on while a test passes leads behind the longest run of bytes that pass it. The test may
pass neither line breaks, which would not be counted, nor the zero that is looked at behind the end. -/
theorem Within.passWhile_head {test : UInt8 → Bool} (noBreak : test newline = false)
    (noZero : test 0 = false) {fuel : Nat} (within : Within source cursor)
    (enough : cursor.rest.length < fuel) (start : Nat) :
    (cursor.head start).passWhile source test fuel =
      some ((cursor.advance (cursor.rest.takeWhile test).length).head start) := by
  induction fuel generalizing cursor with
  | zero => exact absurd enough (Nat.not_lt_zero _)
  | succ fuel ih =>
    have next := within.peek_head start 0
    unfold Head.passWhile
    rw [next]
    cases ahead : cursor.rest with
    | nil =>
      simp only [Option.bind_eq_bind, Option.bind_some, List.getElem?_nil, Option.getD_none, noZero]
      rfl
    | cons byte rest =>
      simp only [Option.bind_eq_bind, Option.bind_some, List.getElem?_cons_zero, Option.getD_some]
      cases passes : test byte with
      | false =>
        rw [List.takeWhile_cons_of_neg (by simp [passes])]
        rfl
      | true =>
        have isNoBreak : byte ≠ newline := by
          rintro rfl
          rw [passes] at noBreak
          cases noBreak
        have moved := advance_one ahead
        rw [if_neg isNoBreak] at moved
        have shorter : (cursor.advance 1).rest.length < fuel := by
          rw [moved]
          rw [ahead, List.length_cons] at enough
          exact Nat.lt_of_succ_lt_succ enough
        have behind := ih (within.advance_cons ahead) shorter
        rw [within.advance_head ahead, List.takeWhile_cons_of_pos passes, List.length_cons,
          advance_succ]
        rw [moved] at behind ⊢
        exact behind

/-- Going on up to a byte leads to the first such byte ahead, or to the end. -/
theorem Within.passUntil_head (stop : UInt8) (fuel : Nat) (within : Within source cursor)
    (enough : cursor.rest.length < fuel) (start : Nat) :
    (cursor.head start).passUntil source stop fuel =
      some ((cursor.advance (cursor.rest.takeWhile (· ≠ stop)).length).head start) := by
  induction fuel generalizing cursor with
  | zero => exact absurd enough (Nat.not_lt_zero _)
  | succ fuel ih =>
    have next := within.peek_head start 0
    have atEnd := within.atEnd_head start
    unfold Head.passUntil
    rw [next, atEnd]
    simp only [Option.bind_eq_bind, Option.bind_some]
    cases ahead : cursor.rest with
    | nil =>
      rw [if_neg (by simp)]
      rfl
    | cons byte rest =>
      simp only [List.getElem?_cons_zero, Option.getD_some, List.isEmpty_cons, and_true]
      by_cases isStop : byte = stop
      · rw [if_neg (not_not.mpr isStop), List.takeWhile_cons_of_neg (by simpa using isStop)]
        rfl
      · have moved := advance_one ahead
        have shorter : (cursor.advance 1).rest.length < fuel := by
          rw [moved]
          rw [ahead, List.length_cons] at enough
          exact Nat.lt_of_succ_lt_succ enough
        have behind := ih (within.advance_cons ahead) shorter
        rw [if_pos isStop, within.advance_head ahead,
          List.takeWhile_cons_of_pos (by simpa using isStop), List.length_cons, advance_succ]
        rw [moved] at behind ⊢
        exact behind

/-- A comment goes on up to the line break, and further trivia begins there. -/
theorem triviaLength_comment (bytes : List UInt8) :
    triviaLength true bytes =
      (bytes.takeWhile (· ≠ newline)).length +
        triviaLength false (bytes.drop (bytes.takeWhile (· ≠ newline)).length) := by
  induction bytes with
  | nil => rfl
  | cons byte rest ih =>
    by_cases isBreak : byte = newline
    · rw [List.takeWhile_cons_of_neg (by simpa using isBreak), triviaLength, isBreak]
      simp [triviaLength, show isBlank newline = true by decide]
    · rw [List.takeWhile_cons_of_pos (by simpa using isBreak), triviaLength,
        bne_iff_ne.mpr isBreak, ih, List.length_cons, List.drop_succ_cons]
      omega

/-- Going on up to the line break behind a comment leads to a later place before the same token. -/
theorem Within.pass_comment (within : Within source cursor) {more : List UInt8}
    (ahead : cursor.rest = '/'.toUInt8 :: '/'.toUInt8 :: more) (start : Nat) :
    ∃ after : Cursor, Within source after ∧
      (cursor.head start).passUntil source newline (source.length + 1) = some (after.head start) ∧
      after.rest.length < cursor.rest.length ∧ after.skipTrivia = cursor.skipTrivia := by
  have length := within.length_rest
  have toBreak := within.passUntil_head newline (source.length + 1) (by omega) start
  have text : (cursor.rest.takeWhile (· ≠ newline)).length =
      (more.takeWhile (· ≠ newline)).length + 2 := by
    rw [ahead]
    rfl
  have isThere : (more.takeWhile (· ≠ newline)).length ≤ more.length :=
    (List.takeWhile_prefix _).length_le
  rw [text] at toBreak
  refine ⟨_, within.advance ?_, toBreak, ?_, ?_⟩
  · rw [ahead]
    exact Nat.add_le_add_right isThere 2
  · rw [length_rest_advance, ahead]
    simp only [List.length_cons]
    omega
  · have rest : (cursor.advance ((more.takeWhile (· ≠ newline)).length + 2)).rest =
        more.drop (more.takeWhile (· ≠ newline)).length := by
      change cursor.rest.drop _ = _
      rw [ahead]
      rfl
    rw [Cursor.skipTrivia, Cursor.skipTrivia, rest, advance_advance, ahead, triviaLength_slashes,
      triviaLength_comment]
    congr 1
    omega

/-- Going on behind blanks and comments leads to where the next token starts. -/
theorem Within.skipTrivia_head {fuel : Nat} (within : Within source cursor)
    (enough : cursor.rest.length < fuel) (start : Nat) :
    (cursor.head start).skipTrivia source fuel = some (cursor.skipTrivia.head start) := by
  induction fuel generalizing cursor with
  | zero => exact absurd enough (Nat.not_lt_zero _)
  | succ fuel ih =>
    have next := within.peek_head start 0
    have second := within.peek_head start 1
    have length := within.length_rest
    unfold Head.skipTrivia
    rw [within.atEnd_head start, next, second, Cursor.skipTrivia]
    cases ahead : cursor.rest with
    | nil => rfl
    | cons byte rest =>
      rw [ahead, List.length_cons] at enough
      simp only [Option.bind_eq_bind, Option.bind_some, List.getElem?_cons_zero, Option.getD_some,
        List.isEmpty_cons, Bool.false_eq_true, if_false, List.getElem?_cons_succ]
      by_cases isBlank : Lox.isBlank byte
      · have moved := advance_one ahead
        have shorter : (cursor.advance 1).rest.length < fuel := by
          rw [moved]
          exact Nat.lt_of_succ_lt_succ enough
        have behind := ih (within.advance_cons ahead) shorter
        rw [if_pos isBlank, within.advance_head ahead, triviaLength_blank isBlank, advance_succ]
        rw [Cursor.skipTrivia, moved] at behind
        rw [moved]
        exact behind
      · rw [if_neg isBlank]
        by_cases isComment : byte = '/'.toUInt8 ∧ rest.head? = some '/'.toUInt8
        · obtain ⟨rfl, isSecond⟩ := isComment
          obtain ⟨more, rfl⟩ := List.head?_eq_some_iff.mp isSecond
          obtain ⟨after, isAfter, behindComment, shorter, same⟩ := within.pass_comment ahead start
          have behind := ih isAfter (by rw [ahead, List.length_cons] at shorter; omega)
          rw [same, Cursor.skipTrivia, ahead] at behind
          rw [behindComment]
          exact behind
        · -- What is looked at behind the last byte is a zero, and that is no slash.
          have noComment : ¬(byte = '/'.toUInt8 ∧ rest[0]?.getD 0 = '/'.toUInt8) := by
            rw [← List.head?_eq_getElem?]
            cases found : rest.head? with
            | none => exact fun both => absurd both.2 (by decide)
            | some second => simpa [found] using isComment
          rw [triviaLength_other isBlank isComment]
          split
          · next isSlash => rw [if_neg fun isSecond => noComment ⟨isSlash, isSecond⟩]; rfl
          · rfl

/-- What is ahead behind trivia begins with no blank. -/
theorem not_isBlank_drop_triviaLength (inComment : Bool) (bytes : List UInt8) :
    ∀ byte ∈ (bytes.drop (triviaLength inComment bytes)).head?, isBlank byte = false := by
  intro byte isFirst
  have nothing := triviaLength_drop inComment bytes
  obtain ⟨rest, ahead⟩ := List.head?_eq_some_iff.mp isFirst
  refine Bool.eq_false_iff.mpr fun isBlank => ?_
  rw [ahead, triviaLength_blank isBlank] at nothing
  cases nothing

/-- A lexeme that was taken at a place, with the head behind it. -/
def takeLexeme (cursor : Cursor) (found : Lexeme) : Token × Head :=
  let after := cursor.advance found.length
  (⟨found.kind, found.lexeme (cursor.rest.take found.length), after.line⟩, after.head cursor.offset)

/-- The bytes from a place up to a later one are the first ones ahead of it. -/
theorem Within.taken_head (within : Within source cursor) (count : Nat) :
    ((cursor.advance count).head cursor.offset).taken source = cursor.rest.take count := by
  have length : cursor.offset + count - cursor.offset = count := Nat.add_sub_cancel_left _ _
  change (source.drop cursor.offset).take (cursor.offset + count - cursor.offset) = _
  rw [length, within.rest]

/-- The token of the bytes up to a later place is the lexeme that they are. -/
theorem Within.token_head (within : Within source cursor) (kind : Kind) (count : Nat) :
    ((cursor.advance count).head cursor.offset).token source kind =
      cursor.takeLexeme (.token kind count) := by
  unfold Head.token
  rw [within.taken_head]
  rfl

/-- Going on behind one byte while a test passes. -/
theorem Within.passWhile_behind (test : UInt8 → Bool) (noBreak : test newline = false)
    (noZero : test 0 = false) (within : Within source cursor) (ahead : cursor.rest = byte :: rest)
    (start : Nat) :
    ((cursor.advance 1).head start).passWhile source test (source.length + 1) =
      some ((cursor.advance ((rest.takeWhile test).length + 1)).head start) := by
  have length := within.length_rest
  have behind : (cursor.advance 1).rest = rest := by rw [advance_one ahead]
  rw [ahead, List.length_cons] at length
  rw [(within.advance_cons ahead).passWhile_head noBreak noZero (by rw [behind]; omega), behind,
    ← advance_succ]

/-- The rest of a word is read. -/
theorem Within.word_head (within : Within source cursor) (ahead : cursor.rest = byte :: rest) :
    ((cursor.advance 1).head cursor.offset).word source =
      some (cursor.takeLexeme (.word byte rest)) := by
  have pass := within.passWhile_behind isWordByte (by decide) (by decide) ahead
    cursor.offset
  have bytes : cursor.rest.take ((rest.takeWhile isWordByte).length + 1) =
      byte :: rest.takeWhile isWordByte := by
    rw [ahead, List.take_succ_cons]
    exact congrArg (byte :: ·)
      (List.prefix_iff_eq_take.mp (List.takeWhile_prefix isWordByte)).symm
  unfold Head.word
  rw [pass]
  simp only [Option.bind_eq_bind, Option.bind_some]
  rw [within.taken_head, bytes, within.token_head]
  rfl

/-- A fraction is there if the two bytes that are looked at are a point and a digit. -/
theorem fractionLength_eq (bytes : List UInt8) :
    Lexeme.fractionLength bytes =
      if bytes[0]?.getD 0 = '.'.toUInt8 ∧ isDigit (bytes[1]?.getD 0) then
        1 + ((bytes.drop 1).takeWhile isDigit).length
      else 0 := by
  match bytes with
  | [] => rfl
  | [point] =>
    rw [if_neg fun both => absurd both.2 (show ¬isDigit 0 = true by decide)]
    rfl
  | point :: digit :: rest =>
    unfold Lexeme.fractionLength
    simp only [List.getElem?_cons_zero, List.getElem?_cons_succ, Option.getD_some,
      List.drop_succ_cons, List.drop_zero, Bool.and_eq_true, decide_eq_true_eq]
    split
    · next both =>
      rw [List.takeWhile_cons_of_pos both.2, List.length_cons]
      omega
    · rfl

/-- The rest of a number is read. -/
theorem Within.number_head (within : Within source cursor) (ahead : cursor.rest = byte :: rest) :
    ((cursor.advance 1).head cursor.offset).number source =
      some (cursor.takeLexeme (.number rest)) := by
  have pass := within.passWhile_behind isDigit (by decide) (by decide) ahead
    cursor.offset
  have wholeLe : (rest.takeWhile isDigit).length ≤ rest.length :=
    (List.takeWhile_prefix isDigit).length_le
  unfold Lexeme.number
  generalize (rest.takeWhile isDigit).length = whole at pass wholeLe
  have behind : (cursor.advance (whole + 1)).rest = rest.drop whole := by
    change cursor.rest.drop _ = _
    rw [ahead]
    rfl
  have middle : Within source (cursor.advance (whole + 1)) :=
    within.advance (by rw [ahead]; exact Nat.succ_le_succ wholeLe)
  have next := middle.peek_head cursor.offset 0
  have second := middle.peek_head cursor.offset 1
  have fraction := fractionLength_eq (rest.drop whole)
  rw [behind] at next second
  unfold Head.number
  simp only [pass, next, second, Option.bind_eq_bind, Option.bind_some]
  by_cases isPoint : (rest.drop whole)[0]?.getD 0 = '.'.toUInt8
  · by_cases isNext : isDigit ((rest.drop whole)[1]?.getD 0)
    · obtain ⟨more, split⟩ : ∃ more, rest.drop whole = '.'.toUInt8 :: more := by
        cases split : rest.drop whole with
        | nil =>
          rw [split] at isPoint
          exact absurd isPoint (by decide)
        | cons point more =>
          rw [split] at isPoint
          exact ⟨more, congrArg (· :: more) isPoint⟩
      rw [if_pos ⟨isPoint, isNext⟩, split] at fraction
      rw [split] at behind
      have passMore := middle.passWhile_behind isDigit (by decide) (by decide) behind
        cursor.offset
      rw [advance_one behind, if_neg (by decide)] at passMore
      rw [if_pos isPoint, if_pos isNext, middle.advance_head behind]
      refine (congrArg (Option.bind · _) passMore).trans ?_
      rw [Option.bind_some, advance_advance, within.token_head, split, fraction]
      congr 3
      simp only [List.drop_succ_cons, List.drop_zero]
      omega
    · rw [if_neg fun both => isNext both.2] at fraction
      rw [if_pos isPoint, if_neg isNext, within.token_head, fraction, Nat.add_comm, Nat.add_zero]
  · rw [if_neg fun both => isPoint both.1] at fraction
    rw [if_neg isPoint, within.token_head, fraction, Nat.add_comm, Nat.add_zero]

/-- What is ahead behind the text of a string is nothing or begins with the closing quote. -/
theorem head?_drop_takeWhile_ne (stop : UInt8) (bytes : List UInt8) :
    ∀ byte ∈ (bytes.drop (bytes.takeWhile (· ≠ stop)).length).head?, byte = stop := by
  have split : bytes.drop (bytes.takeWhile (· ≠ stop)).length = bytes.dropWhile (· ≠ stop) :=
    (congrArg (List.drop _) List.takeWhile_append_dropWhile.symm).trans List.drop_left
  have stops := List.head?_dropWhile_not (· ≠ stop) bytes
  intro byte isFirst
  rw [← split, isFirst] at stops
  simpa using stops

/-- The rest of a string is read. -/
theorem Within.string_head (within : Within source cursor) (ahead : cursor.rest = byte :: rest) :
    ((cursor.advance 1).head cursor.offset).string source =
      some (cursor.takeLexeme (.string rest)) := by
  have length := within.length_rest
  rw [ahead, List.length_cons] at length
  have first : (cursor.advance 1).rest = rest := by rw [advance_one ahead]
  have pass := (within.advance_cons ahead).passUntil_head '"'.toUInt8 (source.length + 1)
    (by rw [first]; omega) cursor.offset
  have insideLe : (rest.takeWhile (· ≠ '"'.toUInt8)).length ≤ rest.length :=
    (List.takeWhile_prefix _).length_le
  have closing := head?_drop_takeWhile_ne '"'.toUInt8 rest
  rw [first, ← advance_succ] at pass
  unfold Lexeme.string
  dsimp only
  generalize (rest.takeWhile (· ≠ '"'.toUInt8)).length = count at pass insideLe closing ⊢
  have behind : (cursor.advance (count + 1)).rest = rest.drop count := by
    change cursor.rest.drop _ = _
    rw [ahead]
    rfl
  have middle : Within source (cursor.advance (count + 1)) :=
    within.advance (by rw [ahead]; exact Nat.succ_le_succ insideLe)
  unfold Head.string
  rw [pass]
  simp only [Option.bind_eq_bind, Option.bind_some]
  rw [middle.atEnd_head, behind]
  cases split : rest.drop count with
  | nil => rfl
  | cons quote more =>
    rw [split] at behind closing
    obtain rfl := closing quote rfl
    have token := within.token_head .string (count + 1 + 1)
    rw [← advance_advance, advance_one behind, if_neg (by decide)] at token
    rw [List.isEmpty_cons, if_neg (by decide), middle.advance_head behind]
    exact congrArg some token

/-- The byte that an extended token goes on with is taken if it is there. -/
theorem Within.accept_head (within : Within source cursor) (expected : UInt8)
    (isNoBreak : expected ≠ newline) (start : Nat) :
    (cursor.head start).accept source expected =
      some (if cursor.rest.head? = some expected then (true, (cursor.advance 1).head start)
        else (false, cursor.head start)) := by
  unfold Head.accept
  rw [within.atEnd_head]
  cases ahead : cursor.rest with
  | nil => rfl
  | cons byte rest =>
    have found := within.getElem? 0
    rw [ahead] at found
    have moved := advance_one ahead
    rw [List.isEmpty_cons, if_neg (by decide), List.head?_cons]
    change (source[cursor.offset]?.bind fun _ => _) = _
    rw [show source[cursor.offset]? = some byte from found, Option.bind_some]
    by_cases isExpected : byte = expected
    · subst isExpected
      rw [if_neg isNoBreak] at moved
      rw [if_pos rfl, if_pos rfl, moved]
      rfl
    · rw [if_neg isExpected, if_neg (by simpa using isExpected)]

/-- The rest of a token is read. -/
theorem Within.lexeme_head (within : Within source cursor) (ahead : cursor.rest = byte :: rest)
    (isNoBreak : byte ≠ newline) :
    ((cursor.advance 1).head cursor.offset).lexeme source byte =
      some (cursor.takeLexeme (.ofBytes byte rest)) := by
  have behind : (cursor.advance 1).rest = rest := by rw [advance_one ahead]
  unfold Head.lexeme Lexeme.ofBytes
  by_cases isWord : isLetter byte
  · rw [if_pos isWord, if_pos isWord]
    exact within.word_head ahead
  · rw [if_neg isWord, if_neg isWord]
    by_cases isNumber : isDigit byte
    · rw [if_pos isNumber, if_pos isNumber]
      exact within.number_head ahead
    · rw [if_neg isNumber, if_neg isNumber]
      by_cases isQuote : byte = '"'.toUInt8
      · subst isQuote
        exact within.string_head ahead
      · rw [if_neg isQuote, if_neg isQuote]
        cases Lexeme.single? byte with
        | some kind => exact congrArg some (within.token_head kind 1)
        | none =>
          cases Lexeme.extensible? byte with
          | none => rfl
          | some kinds =>
            have accepted := (within.advance_cons ahead).accept_head '='.toUInt8 (by decide)
              cursor.offset
            rw [behind, advance_advance] at accepted
            refine (congrArg (Option.bind · _) accepted).trans ?_
            dsimp only
            by_cases isEqual : rest.head? = some '='.toUInt8
            · rw [if_pos isEqual, if_pos isEqual]
              exact congrArg some (within.token_head kinds.2 2)
            · rw [if_neg isEqual, if_neg isEqual]
              exact congrArg some (within.token_head kinds.1 1)

/-- Reading byte by byte never fails, and takes the token that is found at the front of the bytes
ahead. -/
theorem Within.scan_head (within : Within source cursor) (start : Nat) :
    (cursor.head start).scan source =
      some (cursor.scan.token, cursor.scan.after.head cursor.scan.start) := by
  have length := within.length_rest
  have place := within.skipTrivia
  have atEnd := place.atEnd_head cursor.skipTrivia.offset
  unfold Head.scan
  rw [within.skipTrivia_head (by omega)]
  simp only [Option.bind_eq_bind, Option.bind_some]
  change (if (cursor.skipTrivia.head cursor.skipTrivia.offset).atEnd source then _ else _) = _
  rw [atEnd]
  cases ahead : cursor.skipTrivia.rest with
  | nil =>
    rw [scan_of_nil ahead]
    exact congrArg some (place.token_head .endOfFile 0)
  | cons first rest =>
    have noBlank : isBlank first = false :=
      not_isBlank_drop_triviaLength false cursor.rest first (congrArg List.head? ahead)
    have isNoBreak : first ≠ newline := by
      rintro rfl
      exact absurd noBlank (by decide)
    have moved := advance_one ahead
    rw [if_neg isNoBreak] at moved
    have next := place.advance_head ahead cursor.skipTrivia.offset
    have found := place.lexeme_head ahead isNoBreak
    rw [moved] at found
    rw [List.isEmpty_cons, if_neg (by decide)]
    refine (congrArg (Option.bind · _) next).trans (found.trans ?_)
    rw [scan_of_cons ahead, takeLexeme, ahead]

end Cursor

end Lox
