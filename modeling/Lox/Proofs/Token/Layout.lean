import Lox.Proofs.Token.Lexemes

/-!
# Lexemes joined again

The tokens of a source that reports no trouble depend on its lexemes alone. They may be joined again
with other separators between them, of blanks and of comments that are closed, as long as each separator
begins with a blank: at a blank every lexeme ends, and a slash before it begins no comment.
-/

namespace Lox

/-- How a token is spelled, on whatever line it is. -/
def Token.spelling (token : Token) : Kind × List UInt8 :=
  (token.kind, token.lexeme)

/-- Blanks, and comments that are closed by a line break. -/
inductive Spacing : List UInt8 → Prop
  | nil : Spacing []
  | blank {byte : UInt8} {more : List UInt8} :
      isBlank byte → Spacing more → Spacing (byte :: more)
  | comment {text more : List UInt8} :
      newline ∉ text → Spacing more → Spacing ('/'.toUInt8 :: '/'.toUInt8 :: (text ++ newline :: more))

/-- Spacing that begins with a blank. -/
def IsSeparator (bytes : List UInt8) : Prop :=
  ∃ first more, bytes = first :: more ∧ isBlank first ∧ Spacing more

/-- Lexemes in turn with a separator between any two. There may be one behind the last of them, too. -/
inductive Joined : List (List UInt8) → List UInt8 → Prop
  | nil : Joined [] []
  | last (lexeme : List UInt8) : Joined [lexeme] lexeme
  | cons {lexeme separator text : List UInt8} {lexemes : List (List UInt8)} :
      IsSeparator separator → Joined lexemes text →
      Joined (lexeme :: lexemes) (lexeme ++ (separator ++ text))

/-- A separator is spacing. -/
theorem IsSeparator.spacing {bytes : List UInt8} (isSeparator : IsSeparator bytes) :
    Spacing bytes := by
  obtain ⟨first, more, rfl, isBlank, spacing⟩ := isSeparator
  exact .blank isBlank spacing

/-- Lexemes that are joined are the first one and the others, behind spacing that no lexeme goes on
with. -/
theorem Joined.behind_first {lexeme text : List UInt8} {lexemes : List (List UInt8)}
    (joined : Joined (lexeme :: lexemes) text) :
    ∃ spacing others, text = lexeme ++ (spacing ++ others) ∧ Spacing spacing ∧
      Joined lexemes others ∧ ∀ byte ∈ (spacing ++ others).head?, isBlank byte := by
  cases joined with
  | last => exact ⟨[], [], by simp, .nil, .nil, nofun⟩
  | @cons _ separator others _ isSeparator joined =>
    refine ⟨separator, others, rfl, isSeparator.spacing, joined, ?_⟩
    obtain ⟨first, more, rfl, isBlank, -⟩ := isSeparator
    rintro byte ⟨⟩
    exact isBlank

/-- A comment is skipped with the line break that closes it. -/
theorem triviaLength_closed {text : List UInt8} (noBreak : newline ∉ text) (rest : List UInt8) :
    triviaLength true (text ++ newline :: rest) = text.length + 1 + triviaLength false rest := by
  have inside : (text ++ newline :: rest).takeWhile (· ≠ newline) = text := by
    have goesOn : ∀ byte ∈ text, decide (byte ≠ newline) = true := fun byte isByte =>
      decide_eq_true (ne_of_mem_of_not_mem isByte noBreak)
    rw [List.takeWhile_append_of_pos goesOn, List.takeWhile_cons_of_neg (by decide), List.append_nil]
  rw [Cursor.triviaLength_comment, inside, List.drop_left, triviaLength_blank (by decide)]
  omega

/-- Spacing is skipped, and whatever is skipped behind it. -/
theorem Spacing.triviaLength_append {spacing : List UInt8} (isSpacing : Spacing spacing)
    (rest : List UInt8) :
    triviaLength false (spacing ++ rest) = spacing.length + triviaLength false rest := by
  induction isSpacing with
  | nil => rw [List.nil_append, List.length_nil, Nat.zero_add]
  | blank isBlank _ ih =>
    rw [List.cons_append, triviaLength_blank isBlank, ih, List.length_cons]
    omega
  | comment noBreak _ ih =>
    rw [List.cons_append, List.cons_append, List.append_assoc, List.cons_append,
      triviaLength_slashes, triviaLength_closed noBreak, ih]
    simp only [List.length_cons, List.length_append]
    omega

/-- Bytes that are a lexeme of a kind by themselves, and begin with no trivia. -/
structure Lexeme.StandsAlone (kind : Kind) (first : UInt8) (rest : List UInt8) : Prop where
  isToken : kind ≠ .error
  noBlank : ¬isBlank first
  noComment : ¬(first = '/'.toUInt8 ∧ rest.head? = some '/'.toUInt8)
  found : Lexeme.ofBytes first rest = .token kind (rest.length + 1)

namespace Lexeme.StandsAlone

variable {kind : Kind} {first : UInt8} {rest more : List UInt8}

/-- A lexeme is no end token. -/
theorem kind_ne_endOfFile (alone : StandsAlone kind first rest) : kind ≠ .endOfFile := by
  have isLexeme := Lexeme.kind_ofBytes_ne_endOfFile first rest
  rwa [alone.found] at isLexeme

/-- A lexeme is found where a blank or nothing comes behind it. -/
theorem ofBytes_append (alone : StandsAlone kind first rest)
    (ends : ∀ byte ∈ more.head?, isBlank byte) :
    Lexeme.ofBytes first (rest ++ more) = .token kind (rest.length + 1) := by
  cases more with
  | nil => rw [List.append_nil, alone.found]
  | cons stop more =>
    have isClosed : (Lexeme.ofBytes first rest).IsClosed := by
      rw [alone.found]
      exact fun length => nofun
    rw [Lexeme.ofBytes_append (ends stop rfl) isClosed, alone.found]

/-- Nothing is skipped before a lexeme where a blank or nothing comes behind it. -/
theorem triviaLength_append (alone : StandsAlone kind first rest)
    (ends : ∀ byte ∈ more.head?, isBlank byte) :
    triviaLength false (first :: (rest ++ more)) = 0 := by
  refine triviaLength_other alone.noBlank fun isComment => ?_
  cases rest with
  | nil =>
    have isBlank := ends _ isComment.2
    exact absurd isBlank (by decide)
  | cons next rest => exact alone.noComment isComment

/-- Behind spacing a lexeme is scanned where a blank or nothing comes behind it. -/
theorem scan (alone : StandsAlone kind first rest) (ends : ∀ byte ∈ more.head?, isBlank byte)
    {cursor : Cursor} {spacing : List UInt8} (isSpacing : Spacing spacing)
    (ahead : cursor.rest = spacing ++ first :: (rest ++ more)) :
    cursor.scan.token.spelling = (kind, first :: rest) ∧ cursor.scan.after.rest = more := by
  have skipped : cursor.skipTrivia.rest = first :: (rest ++ more) := by
    change cursor.rest.drop (triviaLength false cursor.rest) = _
    rw [ahead, isSpacing.triviaLength_append, alone.triviaLength_append ends, Nat.add_zero,
      List.drop_left]
  rw [Cursor.scan_of_cons skipped, alone.ofBytes_append ends]
  constructor
  · change (kind, (first :: (rest ++ more)).take (rest.length + 1)) = _
    rw [List.take_succ_cons, List.take_left]
  · change cursor.skipTrivia.rest.drop (rest.length + 1) = more
    rw [skipped, List.drop_succ_cons, List.drop_left]

end Lexeme.StandsAlone

/-- A token whose lexeme stands alone. -/
def Token.StandsAlone (token : Token) : Prop :=
  ∃ first rest, token.lexeme = first :: rest ∧ Lexeme.StandsAlone token.kind first rest

/-- A token that reports no trouble and is not the last stands alone. -/
theorem standsAlone_of_mem {source : List UInt8} {token : Token} (isToken : token ∈ tokens source)
    (noEnd : token.kind ≠ .endOfFile) (noTrouble : token.kind ≠ .error) : token.StandsAlone := by
  obtain ⟨scanned, isScanned, rfl⟩ := List.mem_map.mp isToken
  obtain ⟨place, rfl⟩ := Cursor.exists_scan isScanned
  rw [ne_eq, Cursor.kind_scan_eq_endOfFile] at noEnd
  obtain ⟨first, rest, ahead⟩ := List.exists_cons_of_ne_nil noEnd
  rw [Cursor.scan_of_cons ahead] at noTrouble ⊢
  have nothing : triviaLength false (first :: rest) = 0 := by
    rw [← ahead]
    exact triviaLength_drop false place.rest
  obtain ⟨count, isCount⟩ := Nat.exists_eq_succ_of_ne_zero
    (Nat.ne_of_gt (Lexeme.length_ofBytes_pos first rest))
  have inside := Lexeme.length_ofBytes_le first rest
  have length : (rest.take count).length = count := by
    rw [isCount, List.length_cons] at inside
    rw [List.length_take]
    omega
  have alone := Lexeme.ofBytes_take noTrouble
  dsimp only at noTrouble ⊢
  rw [isCount, Nat.succ_sub_one] at alone
  rw [Lexeme.lexeme_of_kind_ne_error noTrouble, isCount, List.take_succ_cons]
  refine ⟨first, rest.take count, rfl, noTrouble, fun isBlank => ?_, fun isComment => ?_, ?_⟩
  · rw [triviaLength_blank isBlank] at nothing
    cases nothing
  · have isSecond : rest.head? = some '/'.toUInt8 := by
      obtain ⟨more, isMore⟩ := List.head?_eq_some_iff.mp isComment.2
      rw [← List.take_append_drop count rest, isMore]
      rfl
    rw [triviaLength_slash ⟨isComment.1, isSecond⟩] at nothing
    omega
  · rw [alone, length]
    cases found : Lexeme.ofBytes first rest with
    | token kind size =>
      rw [found] at isCount
      exact congrArg (Lexeme.token kind) isCount
    | unterminated size =>
      rw [found] at noTrouble
      exact absurd rfl noTrouble
    | unexpected =>
      rw [found] at noTrouble
      exact absurd rfl noTrouble

/-- How the end token is spelled. -/
theorem spelling_of_kind_endOfFile {cursor : Cursor} (isEnd : cursor.scan.token.kind = .endOfFile) :
    cursor.scan.token.spelling = (.endOfFile, []) := by
  rw [Cursor.scan_of_nil (Cursor.kind_scan_eq_endOfFile.mp isEnd)]
  rfl

/-- Lexemes that stand alone are scanned behind one another when they are joined. -/
theorem scanAll_joined {tokens : List Token} (alone : ∀ token ∈ tokens, token.StandsAlone)
    {text spacing : List UInt8} (joined : Joined (tokens.map Token.lexeme) text)
    (isSpacing : Spacing spacing) {cursor : Cursor} (ahead : cursor.rest = spacing ++ text) {fuel : Nat}
    (enough : cursor.rest.length < fuel) :
    (cursor.scanAll fuel).map (fun scanned => scanned.token.spelling) =
      tokens.map Token.spelling ++ [(.endOfFile, [])] := by
  obtain ⟨fuel, rfl⟩ := Nat.exists_eq_succ_of_ne_zero (Nat.ne_zero_of_lt enough)
  induction tokens generalizing text spacing cursor fuel with
  | nil =>
    cases joined
    have isEnd : cursor.scan.token.kind = .endOfFile := by
      rw [Cursor.kind_scan_eq_endOfFile]
      change cursor.rest.drop (triviaLength false cursor.rest) = []
      rw [ahead, isSpacing.triviaLength_append]
      exact List.drop_of_length_le (by simp)
    rw [Cursor.scanAll_of_endOfFile isEnd, List.map_singleton, spelling_of_kind_endOfFile isEnd]
    rfl
  | cons token tokens ih =>
    rw [List.forall_mem_cons] at alone
    obtain ⟨⟨first, rest, isLexeme, standsAlone⟩, others⟩ := alone
    obtain ⟨spacing', text', rfl, isSpacing', joined', ends⟩ := joined.behind_first
    rw [isLexeme, List.cons_append] at ahead
    obtain ⟨spelling, after⟩ := standsAlone.scan ends isSpacing ahead
    have kind : cursor.scan.token.kind = token.kind := congrArg Prod.fst spelling
    have goesOn : cursor.scan.token.kind ≠ .endOfFile := by
      rw [kind]
      exact standsAlone.kind_ne_endOfFile
    have shorter := Cursor.scan_takes goesOn
    obtain ⟨fuel, rfl⟩ := Nat.exists_eq_succ_of_ne_zero
      (Nat.ne_zero_of_lt (Nat.lt_of_lt_of_le shorter (Nat.le_of_lt_succ enough)))
    rw [Cursor.scanAll_of_ne_endOfFile goesOn, List.map_cons,
      ih others joined' isSpacing' after fuel (Nat.lt_of_lt_of_le shorter (Nat.le_of_lt_succ enough)),
      spelling, List.map_cons, List.cons_append, Token.spelling, isLexeme]

/-- Lexemes that are joined again are scanned as tokens that are spelled like those that they come
from, if none of those reports trouble. -/
theorem spelling_tokens_joined {source text : List UInt8}
    (noTrouble : ∀ token ∈ tokens source, token.kind ≠ .error)
    (joined : Joined ((Source.tokens source).map Token.lexeme) text) :
    (tokens text).map Token.spelling = (tokens source).map Token.spelling := by
  obtain ⟨last, whole, isLast, noEnd⟩ := tokens_eq source
  have alone : ∀ token ∈ Source.tokens source, token.StandsAlone := by
    intro token isToken
    have isToken' : token ∈ tokens source := whole ▸ List.mem_append_left _ isToken
    exact standsAlone_of_mem isToken' (noEnd token isToken) (noTrouble token isToken')
  have isEnd : last.spelling = (.endOfFile, []) := by
    have isToken : last ∈ tokens source := whole ▸ List.mem_append_right _ (List.mem_singleton_self last)
    obtain ⟨scanned, isScanned, rfl⟩ := List.mem_map.mp isToken
    obtain ⟨place, rfl⟩ := Cursor.exists_scan isScanned
    exact spelling_of_kind_endOfFile isLast
  rw [whole, List.map_append, List.map_singleton, isEnd, tokens, scanSource, List.map_map]
  exact scanAll_joined alone joined .nil rfl (Nat.lt_succ_self text.length)

end Lox
