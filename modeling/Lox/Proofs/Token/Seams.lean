import Lox.Proofs.Token.LexicalForms

/-!
# Tokens across a seam

One source may follow another behind a line break. No token, blank or comment of the first reaches over
the seam, if no string in it lacks its closing quote, and the second is scanned as if it began the
source, except for its lines. The tokens before such a string are scanned in any case.

A lexeme ends before a blank wherever it would have ended at the end of the source. Only a string that
is never closed would go on.
-/

namespace Lox

/-- A blank is neither a digit nor part of a word. -/
theorem not_isWordByte_of_isBlank {byte : UInt8} (isBlank : Lox.isBlank byte) :
    isWordByte byte = false ∧ isDigit byte = false ∧ byte ≠ '.'.toUInt8 ∧ byte ≠ '='.toUInt8 := by
  simp only [Lox.isBlank, Bool.or_eq_true, decide_eq_true_eq] at isBlank
  obtain ((rfl | rfl) | rfl) | rfl := isBlank <;> decide

namespace Lexeme

variable {stop : UInt8}

/-- A fraction goes no further than a blank. -/
theorem fractionLength_append (isBlank : Lox.isBlank stop) (bytes more : List UInt8) :
    fractionLength (bytes ++ stop :: more) = fractionLength bytes := by
  obtain ⟨-, noDigit, noPoint, -⟩ := not_isWordByte_of_isBlank isBlank
  match bytes with
  | [] =>
    cases more with
    | nil => rfl
    | cons next more =>
      rw [List.nil_append, fractionLength, decide_eq_false noPoint]
      rfl
  | [point] =>
    rw [List.singleton_append, fractionLength, noDigit, Bool.and_false]
    rfl
  | point :: digit :: rest =>
    rw [List.cons_append, List.cons_append, fractionLength, fractionLength,
      takeWhile_append_stop noDigit]

/-- A number goes no further than a blank. -/
theorem number_append (isBlank : Lox.isBlank stop) (rest more : List UInt8) :
    number (rest ++ stop :: more) = number rest := by
  obtain ⟨-, noDigit, -, -⟩ := not_isWordByte_of_isBlank isBlank
  have inside : (rest.takeWhile isDigit).length ≤ rest.length :=
    (List.takeWhile_prefix isDigit).length_le
  unfold number
  dsimp only
  rw [takeWhile_append_stop noDigit, List.drop_append_of_le_length inside,
    fractionLength_append isBlank]

/-- A word goes no further than a blank. -/
theorem word_append (isBlank : Lox.isBlank stop) (first : UInt8) (rest more : List UInt8) :
    word first (rest ++ stop :: more) = word first rest := by
  unfold word
  rw [takeWhile_append_stop (not_isWordByte_of_isBlank isBlank).1]

/-- No string without its closing quote. -/
def IsClosed (found : Lexeme) : Prop :=
  ∀ length, found ≠ .unterminated length

/-- What is no trouble is closed. -/
theorem isClosed_of_kind_ne_error {found : Lexeme} (isToken : found.kind ≠ .error) :
    found.IsClosed := by
  rintro length rfl
  exact isToken rfl

/-- A string that is closed is bytes without a quote, and a quote. -/
theorem string_of_isClosed {rest : List UInt8} (isClosed : (string rest).IsClosed) :
    ∃ inside more, '"'.toUInt8 ∉ inside ∧ rest = inside ++ '"'.toUInt8 :: more ∧
      string rest = token .string (inside.length + 2) :=
  (string_cases rest).resolve_left fun isOpen => isClosed _ isOpen.2

/-- A string that is closed goes no further than its closing quote. -/
theorem string_append {rest : List UInt8} (isClosed : (string rest).IsClosed)
    (more : List UInt8) : string (rest ++ more) = string rest := by
  obtain ⟨inside, behind, noQuote, rfl, found⟩ := string_of_isClosed isClosed
  rw [List.append_assoc, List.cons_append, string_of_quote noQuote, found]

/-- A string without its closing quote takes all bytes. -/
theorem length_of_unterminated {first : UInt8} {rest : List UInt8} {length : Nat}
    (isOpen : ofBytes first rest = unterminated length) : length = (first :: rest).length := by
  obtain ⟨-, isString⟩ := eq_quote_of_unterminated isOpen
  obtain ⟨-, found⟩ | ⟨_, _, -, -, found⟩ := string_cases rest
  · cases found.symm.trans isString
    rfl
  · cases found.symm.trans isString

/-- A lexeme goes no further than a blank, unless it is a string without its closing quote. -/
theorem ofBytes_append (isBlank : Lox.isBlank stop) {first : UInt8} {rest : List UInt8}
    (isClosed : (ofBytes first rest).IsClosed) (more : List UInt8) :
    ofBytes first (rest ++ stop :: more) = ofBytes first rest := by
  unfold ofBytes at isClosed ⊢
  split
  · exact word_append isBlank first rest more
  · split
    · exact number_append isBlank rest more
    · next noLetter noDigit =>
      rw [if_neg noLetter, if_neg noDigit] at isClosed
      split
      · next isQuote =>
        rw [if_pos isQuote] at isClosed
        exact string_append isClosed _
      · obtain ⟨-, -, -, noEqual⟩ := not_isWordByte_of_isBlank isBlank
        have next : (rest ++ stop :: more).head? = some '='.toUInt8 ↔
            rest.head? = some '='.toUInt8 := by
          cases rest with
          | nil => simpa using noEqual
          | cons byte rest => rfl
        simp only [next]

end Lexeme

/-- What stands behind a line break is behind whatever was skipped up to it. Otherwise nothing of it
is reached. -/
theorem triviaLength_append (inComment : Bool) (bytes more : List UInt8) :
    triviaLength inComment (bytes ++ newline :: more) =
      if triviaLength inComment bytes = bytes.length then bytes.length + 1 + triviaLength false more
      else triviaLength inComment bytes := by
  induction bytes generalizing inComment with
  | nil => cases inComment <;> rfl
  | cons byte bytes ih =>
    -- One more byte is skipped in both, and the seam is one byte further on.
    have more' (inComment : Bool) :
        1 + triviaLength inComment (bytes ++ newline :: more) =
          if 1 + triviaLength inComment bytes = bytes.length + 1 then
            bytes.length + 1 + 1 + triviaLength false more
          else 1 + triviaLength inComment bytes := by
      rw [ih]
      split <;> split <;> omega
    rw [List.cons_append, List.length_cons]
    cases inComment with
    | true => exact more' _
    | false =>
      have second : (bytes ++ newline :: more).head? = some '/'.toUInt8 ↔
          bytes.head? = some '/'.toUInt8 := by
        cases bytes with
        | nil => exact iff_of_false (by simpa using by decide) nofun
        | cons next bytes => rfl
      by_cases isBlank : Lox.isBlank byte
      · rw [triviaLength_blank isBlank, triviaLength_blank isBlank, Nat.add_comm _ 1,
          Nat.add_comm _ 1]
        exact more' false
      · by_cases isComment : byte = '/'.toUInt8 ∧ bytes.head? = some '/'.toUInt8
        · rw [triviaLength_slash isComment, triviaLength_slash (by rwa [second])]
          exact more' true
        · rw [triviaLength_other isBlank isComment, triviaLength_other isBlank (by rwa [second]),
            if_neg (Nat.succ_ne_zero bytes.length).symm]

namespace Cursor

/-- The place with more bytes behind those ahead. -/
def append (cursor : Cursor) (more : List UInt8) : Cursor :=
  { cursor with rest := cursor.rest ++ more }

/-- The place behind further bytes with some line breaks among them. -/
def behind (bytes gap : Nat) (cursor : Cursor) : Cursor :=
  { cursor with offset := cursor.offset + bytes, line := cursor.line + gap }

end Cursor

/-- The token some lines further on. -/
def Token.later (gap : Nat) (token : Token) : Token :=
  { token with line := token.line + gap }

/-- A token that reports a string without its closing quote. -/
def Token.IsUnterminated (token : Token) : Prop :=
  token.kind = .error ∧ token.lexeme = Text.encode "Unterminated string."

/-- What is scanned behind further bytes with some line breaks among them. -/
def Scanned.behind (bytes gap : Nat) (scanned : Scanned) : Scanned :=
  ⟨scanned.token.later gap, scanned.start + bytes, scanned.after.behind bytes gap⟩

namespace Cursor

variable {cursor : Cursor} {more : List UInt8}

/-- Going on by bytes that are ahead is the same with more behind them. -/
theorem advance_append {count : Nat} (enough : count ≤ cursor.rest.length) :
    (cursor.append more).advance count = (cursor.advance count).append more := by
  unfold append advance
  rw [List.drop_append_of_le_length enough, List.take_append_of_le_length enough]

/-- Where no string without its closing quote is reported, none is found. -/
theorem isClosed_of_scan {first : UInt8} {rest : List UInt8}
    (ahead : cursor.skipTrivia.rest = first :: rest)
    (noString : ¬cursor.scan.token.IsUnterminated) : (Lexeme.ofBytes first rest).IsClosed := by
  intro length isOpen
  rw [scan_of_cons ahead, isOpen] at noString
  exact noString ⟨rfl, rfl⟩

/-- A token is scanned the same with a further source behind a line break, unless it reports a string
without its closing quote. -/
theorem scan_append (isToken : cursor.scan.token.kind ≠ .endOfFile)
    (noString : ¬cursor.scan.token.IsUnterminated) :
    (cursor.append (newline :: more)).scan =
      ⟨cursor.scan.token, cursor.scan.start, cursor.scan.after.append (newline :: more)⟩ := by
  rw [ne_eq, kind_scan_eq_endOfFile] at isToken
  obtain ⟨first, rest, ahead⟩ := List.exists_cons_of_ne_nil isToken
  have isClosed := isClosed_of_scan ahead noString
  rw [scan_of_cons ahead]
  have skipped : triviaLength false (cursor.rest ++ newline :: more) =
      triviaLength false cursor.rest := by
    rw [triviaLength_append, if_neg]
    intro whole
    rw [skipTrivia, whole] at isToken
    exact isToken List.drop_length
  have start : (cursor.append (newline :: more)).skipTrivia =
      cursor.skipTrivia.append (newline :: more) := by
    change (cursor.append (newline :: more)).advance
      (triviaLength false (cursor.rest ++ newline :: more)) = _
    rw [skipped, advance_append (triviaLength_le false cursor.rest)]
    rfl
  have found := Lexeme.ofBytes_append (by decide : isBlank newline) isClosed more
  have inside := Lexeme.length_ofBytes_le first rest
  have ahead' : (cursor.append (newline :: more)).skipTrivia.rest =
      first :: (rest ++ newline :: more) := by
    rw [start]
    change cursor.skipTrivia.rest ++ newline :: more = _
    rw [ahead, List.cons_append]
  rw [scan_of_cons ahead', found, start, advance_append (by rwa [ahead]), ← List.cons_append,
    List.take_append_of_le_length inside]
  rfl

/-- Going on is the same behind further bytes. -/
theorem advance_behind (bytes gap : Nat) (cursor : Cursor) (count : Nat) :
    (cursor.behind bytes gap).advance count = (cursor.advance count).behind bytes gap := by
  unfold behind advance
  rw [Nat.add_right_comm cursor.offset, Nat.add_right_comm cursor.line]

/-- A token is scanned the same behind further bytes, but for its line. -/
theorem scan_behind (bytes gap : Nat) (cursor : Cursor) :
    (cursor.behind bytes gap).scan = cursor.scan.behind bytes gap := by
  have start : (cursor.behind bytes gap).skipTrivia = cursor.skipTrivia.behind bytes gap :=
    advance_behind bytes gap cursor _
  cases ahead : cursor.skipTrivia.rest with
  | nil =>
    rw [scan_of_nil ahead, scan_of_nil (by rw [start]; exact ahead), start]
    rfl
  | cons first rest =>
    rw [scan_of_cons ahead, scan_of_cons (by rw [start]; exact ahead), start, advance_behind]
    rfl

/-- All tokens are scanned the same behind further bytes, but for their lines. -/
theorem scanAll_behind (bytes gap fuel : Nat) (cursor : Cursor) :
    (cursor.behind bytes gap).scanAll fuel = (cursor.scanAll fuel).map (·.behind bytes gap) := by
  induction fuel generalizing cursor with
  | zero => rfl
  | succ fuel ih =>
    have scan := scan_behind bytes gap cursor
    have kind : (cursor.behind bytes gap).scan.token.kind = cursor.scan.token.kind := by
      rw [scan]
      rfl
    by_cases isEnd : cursor.scan.token.kind = .endOfFile
    · rw [scanAll_of_endOfFile (kind.trans isEnd), scanAll_of_endOfFile isEnd, scan]
      rfl
    · rw [scanAll_of_ne_endOfFile (by rwa [kind]), scanAll_of_ne_endOfFile isEnd, scan,
        List.map_cons, ← ih]
      rfl

/-- Any fuel above the number of bytes ahead scans the same tokens. -/
theorem scanAll_of_enough {fuel fuel' : Nat} (enough : cursor.rest.length < fuel)
    (enough' : cursor.rest.length < fuel') : cursor.scanAll fuel = cursor.scanAll fuel' := by
  induction fuel generalizing cursor fuel' with
  | zero => exact absurd enough (Nat.not_lt_zero _)
  | succ fuel ih =>
    obtain ⟨fuel', rfl⟩ := Nat.exists_eq_succ_of_ne_zero (Nat.ne_zero_of_lt enough')
    by_cases isEnd : cursor.scan.token.kind = .endOfFile
    · rw [scanAll_of_endOfFile isEnd, scanAll_of_endOfFile isEnd]
    · have shorter := scan_takes isEnd
      rw [scanAll_of_ne_endOfFile isEnd, scanAll_of_ne_endOfFile isEnd,
        ih (Nat.lt_of_lt_of_le shorter (Nat.le_of_lt_succ enough))
          (Nat.lt_of_lt_of_le shorter (Nat.le_of_lt_succ enough'))]

/-- Only what stands behind the trivia matters for the tokens. -/
theorem scanAll_of_skipTrivia {other : Cursor} (same : cursor.skipTrivia = other.skipTrivia)
    (fuel : Nat) : cursor.scanAll fuel = other.scanAll fuel := by
  cases fuel with
  | zero => rfl
  | succ fuel =>
    have scan : cursor.scan = other.scan := by
      unfold Cursor.scan
      rw [same]
    unfold scanAll
    rw [scan]

/-- A scan goes to a place with as many line breaks up to the end. -/
theorem line_add_count_scan (cursor : Cursor) :
    cursor.scan.after.line + cursor.scan.after.rest.count newline =
      cursor.line + cursor.rest.count newline := by
  have advanced (cursor : Cursor) (count : Nat) :
      (cursor.advance count).line + (cursor.advance count).rest.count newline =
        cursor.line + cursor.rest.count newline := by
    change cursor.line + (cursor.rest.take count).count newline +
      (cursor.rest.drop count).count newline = _
    rw [Nat.add_assoc, ← List.count_append, List.take_append_drop]
  unfold scan
  dsimp only
  split
  · exact advanced cursor _
  · exact (advanced _ _).trans (advanced cursor _)

/-- Where nothing but trivia is ahead, a further source is reached behind it and the line break. -/
theorem skipTrivia_append (isEnd : cursor.skipTrivia.rest = []) (more : List UInt8) :
    (cursor.append (newline :: more)).skipTrivia =
      ((ofSource more).behind (cursor.offset + cursor.rest.length + 1)
        (cursor.line + cursor.rest.count newline)).skipTrivia := by
  have whole : triviaLength false cursor.rest = cursor.rest.length :=
    Nat.le_antisymm (triviaLength_le false _) (List.drop_eq_nil_iff.mp isEnd)
  change (cursor.append (newline :: more)).advance
    (triviaLength false (cursor.rest ++ newline :: more)) = advance _ (triviaLength false more)
  rw [triviaLength_append, if_pos whole, Nat.add_assoc]
  unfold advance append behind ofSource
  dsimp only
  rw [List.drop_append, List.take_append, List.drop_of_length_le (by omega),
    List.take_of_length_le (by omega), Nat.add_sub_cancel_left, Nat.add_comm 1,
    List.drop_succ_cons, List.take_succ_cons, List.count_append, List.count_cons_self,
    List.nil_append]
  congr 1 <;> omega

/-- The tokens of a further source behind a line break come behind those up to there. -/
theorem scanAll_append {fuel fuel' : Nat} (enough : cursor.rest.length < fuel)
    (enough' : cursor.rest.length + 1 + more.length < fuel')
    (noString : ∀ scanned ∈ cursor.scanAll fuel, ¬scanned.token.IsUnterminated) :
    ((cursor.append (newline :: more)).scanAll fuel').map Scanned.token =
      ((cursor.scanAll fuel).map Scanned.token).dropLast ++
        (Lox.tokens more).map (Token.later (cursor.line + cursor.rest.count newline)) := by
  induction fuel generalizing cursor fuel' with
  | zero => exact absurd enough (Nat.not_lt_zero _)
  | succ fuel ih =>
    by_cases isEnd : cursor.scan.token.kind = .endOfFile
    · -- Only trivia is left up to the seam, so the second source begins behind it.
      rw [scanAll_of_skipTrivia (skipTrivia_append (kind_scan_eq_endOfFile.mp isEnd) more),
        scanAll_behind, scanAll_of_endOfFile isEnd, Lox.tokens, scanSource, List.map_map, List.map_map,
        scanAll_of_enough (show (ofSource more).rest.length < fuel' from
          Nat.lt_of_le_of_lt (Nat.le_add_left _ _) enough') (Nat.lt_succ_self more.length)]
      rfl
    · obtain ⟨fuel', rfl⟩ := Nat.exists_eq_succ_of_ne_zero (Nat.ne_zero_of_lt enough')
      rw [scanAll_of_ne_endOfFile isEnd] at noString
      have first := @scan_append cursor more isEnd (noString _ List.mem_cons_self)
      have goesOn : (cursor.append (newline :: more)).scan.token.kind ≠ .endOfFile := by rwa [first]
      have shorter := scan_takes isEnd
      have others := @ih cursor.scan.after fuel' (by omega) (by omega)
        fun scanned isLater => noString scanned (List.mem_cons_of_mem _ isLater)
      obtain ⟨before, last, whole, -⟩ := scanAll_eq fuel cursor.scan.after (by omega)
      have notLast : (cursor.scan.after.scanAll fuel).map Scanned.token ≠ [] := by simp [whole]
      rw [scanAll_of_ne_endOfFile goesOn, scanAll_of_ne_endOfFile isEnd, first, List.map_cons,
        List.map_cons, others, line_add_count_scan, List.dropLast_cons_of_ne_nil notLast,
        List.cons_append]

/-- Behind a string without its closing quote nothing is ahead. -/
theorem rest_scan_of_isUnterminated (isOpen : cursor.scan.token.IsUnterminated) :
    cursor.scan.after.rest = [] := by
  cases ahead : cursor.skipTrivia.rest with
  | nil =>
    rw [scan_of_nil ahead] at isOpen
    cases isOpen.1
  | cons first rest =>
    rw [scan_of_cons ahead] at isOpen ⊢
    change cursor.skipTrivia.rest.drop (Lexeme.ofBytes first rest).length = []
    obtain ⟨isError, isMessage⟩ := isOpen
    cases found : Lexeme.ofBytes first rest with
    | token kind length =>
      rw [found] at isError
      exact absurd isError (Lexeme.isForm_ofBytes found).kind_ne_error
    | unterminated length =>
      rw [ahead, Lexeme.length, Lexeme.length_of_unterminated found]
      exact List.drop_length
    | unexpected =>
      rw [found] at isMessage
      have differ : Text.encode "Unexpected character." ≠ Text.encode "Unterminated string." := by
        decide
      exact absurd isMessage differ

/-- What is scanned before a string without its closing quote comes first with a further source behind
a line break, too. -/
theorem isPrefix_scanAll_append {fuel fuel' : Nat}
    (enough' : cursor.rest.length + 1 + more.length < fuel') {before after : List Token} {token : Token}
    (split : (cursor.scanAll fuel).map Scanned.token = before ++ token :: after)
    (isOpen : token.IsUnterminated) :
    before <+: ((cursor.append (newline :: more)).scanAll fuel').map Scanned.token := by
  induction before generalizing cursor fuel fuel' with
  | nil => exact List.nil_prefix
  | cons first before ih =>
    obtain ⟨fuel', rfl⟩ := Nat.exists_eq_succ_of_ne_zero (Nat.ne_zero_of_lt enough')
    cases fuel with
    | zero => cases split
    | succ fuel =>
      by_cases isEnd : cursor.scan.token.kind = .endOfFile
      · -- Nothing is scanned behind the end token.
        rw [scanAll_of_endOfFile isEnd] at split
        simp at split
      · rw [scanAll_of_ne_endOfFile isEnd, List.map_cons, List.cons_append, List.cons.injEq] at split
        obtain ⟨rfl, split⟩ := split
        have closed : ¬cursor.scan.token.IsUnterminated := by
          intro isOpenHere
          have nothing : cursor.scan.after.scan.token.kind = .endOfFile :=
            kind_scan_eq_endOfFile.mpr (by
              change cursor.scan.after.rest.drop _ = []
              rw [rest_scan_of_isUnterminated isOpenHere, List.drop_nil])
          cases fuel with
          | zero => simp [scanAll] at split
          | succ fuel =>
            rw [scanAll_of_endOfFile nothing, List.map_singleton] at split
            have isLast : token ∈ [cursor.scan.after.scan.token] := by simp [split]
            rw [← List.mem_singleton.mp isLast, isOpen.1] at nothing
            cases nothing
        have same := @scan_append cursor more isEnd closed
        have goesOn : (cursor.append (newline :: more)).scan.token.kind ≠ .endOfFile := by rwa [same]
        have shorter := scan_takes isEnd
        rw [scanAll_of_ne_endOfFile goesOn, same, List.map_cons, List.cons_prefix_cons]
        exact ⟨rfl, ih (by omega) split⟩

end Cursor

/-- The fuel of two sources with a line break between them is enough for both. -/
theorem length_append_newline (first second : List UInt8) :
    first.length + 1 + second.length < (first ++ newline :: second).length + 1 := by
  rw [List.length_append, List.length_cons]
  omega

/-- The tokens of two sources with a line break between them are those of the first up to its end and
then those of the second, which are as many lines further on as the first has. -/
theorem tokens_append {first : List UInt8} (closed : ∀ token ∈ tokens first, ¬token.IsUnterminated)
    (second : List UInt8) :
    tokens (first ++ newline :: second) =
      Source.tokens first ++ (tokens second).map (Token.later (1 + first.count newline)) :=
  @Cursor.scanAll_append (Cursor.ofSource first) second _ _ (Nat.lt_succ_self _)
    (length_append_newline first second)
    fun _ isScanned => closed _ (List.mem_map_of_mem isScanned)

/-- The tokens up to the end of two sources with a line break between them, if the first reports no
trouble. -/
theorem Source.tokens_append {first : List UInt8}
    (noTrouble : ∀ token ∈ Source.tokens first, token.kind ≠ .error) (second : List UInt8) :
    Source.tokens (first ++ newline :: second) =
      Source.tokens first ++
        (Source.tokens second).map (Token.later (1 + first.count newline)) := by
  obtain ⟨last, whole, isLast, -⟩ := tokens_eq first
  obtain ⟨last', whole', -⟩ := tokens_eq second
  have closed : ∀ token ∈ Lox.tokens first, ¬token.IsUnterminated := by
    intro token isToken isOpen
    rw [whole, List.mem_append, List.mem_singleton] at isToken
    obtain isToken | rfl := isToken
    · exact noTrouble _ isToken isOpen.1
    · exact absurd isOpen.1 (by simp [isLast])
  rw [Source.tokens, Lox.tokens_append closed, whole', List.map_append, ← List.append_assoc,
    List.map_singleton, List.dropLast_concat]

/-- Scanning splits at a line break. Unless the first source has a string without its closing quote, its
tokens up to its end come first and then those of the second, as many lines further on as there are line
breaks before it. The tokens before such a string come first in any case. -/
theorem tokens_split_at_newline (first second : List UInt8) :
    ((∀ token ∈ tokens first, ¬token.IsUnterminated) →
      ∃ before last, tokens first = before ++ [last] ∧ last.kind = .endOfFile ∧
        (∀ token ∈ before, token.kind ≠ .endOfFile) ∧
        tokens (first ++ newline :: second) =
          before ++ (tokens second).map (Token.later (1 + first.count newline))) ∧
    ∀ before token after, tokens first = before ++ token :: after → token.IsUnterminated →
      before <+: tokens (first ++ newline :: second) := by
  refine ⟨fun closed => ?_, fun before token after split isOpen => ?_⟩
  · obtain ⟨last, whole, isLast, others⟩ := tokens_eq first
    exact ⟨_, last, whole, isLast, others, tokens_append closed second⟩
  · exact @Cursor.isPrefix_scanAll_append (Cursor.ofSource first) second _ _
      (length_append_newline first second) before after token split isOpen

/-- The half of an operator before a line break is no part of what comes behind it, and what comes before
an open string stays what it is. -/
theorem tokens_bang_before_newline :
    tokens (Text.encode "@ !" ++ newline :: Text.encode "= 1") =
      [⟨.error, Text.encode "Unexpected character.", 1⟩, ⟨.bang, Text.encode "!", 1⟩,
        ⟨.equal, Text.encode "=", 2⟩, ⟨.number, Text.encode "1", 2⟩, ⟨.endOfFile, [], 2⟩] ∧
    [⟨.identifier, Text.encode "a", 1⟩] <+:
      tokens (Text.encode "a \"b" ++ newline :: Text.encode "\" c") := by
  have closed : ∀ token ∈ tokens (Text.encode "@ !"), ¬token.IsUnterminated := by
    unfold Token.IsUnterminated
    decide +kernel
  have scanned : tokens (Text.encode "@ !") =
      [⟨.error, Text.encode "Unexpected character.", 1⟩, ⟨.bang, Text.encode "!", 1⟩] ++
        [⟨.endOfFile, [], 1⟩] := by
    decide +kernel
  have scanned' : tokens (Text.encode "a \"b") =
      [⟨.identifier, Text.encode "a", 1⟩] ++
        ⟨.error, Text.encode "Unterminated string.", 1⟩ :: [⟨.endOfFile, [], 1⟩] := by
    decide +kernel
  obtain ⟨before, last, whole, -, -, joined⟩ :=
    (tokens_split_at_newline (Text.encode "@ !") (Text.encode "= 1")).1 closed
  obtain ⟨rfl, -⟩ := List.append_inj' (scanned.symm.trans whole) rfl
  refine ⟨joined.trans (by decide +kernel), ?_⟩
  exact (tokens_split_at_newline (Text.encode "a \"b") (Text.encode "\" c")).2 _ _ _ scanned'
    ⟨rfl, rfl⟩

end Lox
