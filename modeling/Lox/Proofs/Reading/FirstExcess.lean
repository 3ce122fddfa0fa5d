import Lox.Proofs.Grammar.PostOrder
import Lox.Proofs.Reading.Offence

/-!
# Which excess is reported

A source whose tokens are a sentence of the grammar is refused for the first part of its tree, in
post-order, that exceeds a limit, and at a token of that part. It makes no difference which of its trees
is looked at, because they differ only in the places of alternatives.

If the tokens are no sentence, the limits are not looked at.
-/

namespace Lox.Source

open Grammar

/-- The excess in a tree of a source is what the source is refused for. -/
theorem ofSource_of_excess {source : List UInt8} {tree : List Stmt} {diagnostic : Diagnostic}
    (isProgram : IsProgram (Source.tokens source) tree)
    (excess : Stmt.excessOfList? tree = some diagnostic) :
    Program.ofSource source = .error diagnostic := by
  have isTree : ofTokens (Source.tokens source) = .ok (Stmt.settledAll tree) :=
    (ofTokens_eq_ok_iff _ _).mpr ⟨isProgram.settled, Stmt.nearestElseAll_settledAll tree⟩
  rw [Program.ofSource, read_of_ofTokens isTree, Stmt.excessOfList?_settledAll, excess]
  rfl

/-- Tokens that are no sentence are not refused for a limit. -/
theorem ofTokens_of_not_sentence {tokens : List Token} (noSentence : ¬Sentence tokens) :
    ∃ diagnostic, ofTokens tokens = .error diagnostic ∧ ¬IsLimit diagnostic := by
  cases result : ofTokens tokens with
  | ok tree => exact absurd ⟨tree, ((ofTokens_eq_ok_iff tokens tree).mp result).1⟩ noSentence
  | error diagnostic =>
    refine ⟨diagnostic, rfl, ?_⟩
    unfold ofTokens at result
    split at result
    · cases result
    · next failure _ =>
      obtain rfl := Except.error.inj result
      unfold Failure.diagnostic
      split
      · exact id
      · split
        · exact id
        · split <;> exact id

/-- If parts of a program exceed a limit, it is refused for the first of them in post-order, at its
closing parenthesis or last parameter. In post-order such tokens stand as they do in the source. A source
that has any other trouble, lexical or in its grammar, is not refused for a limit. -/
theorem first_excess_reported (source : List UInt8) :
    (∀ tree, IsProgram (Source.tokens source) tree →
      ((Stmt.parts tree).flatMap Part.marks).Sublist (Source.tokens source) ∧
      ((∃ part ∈ Stmt.parts tree, ∃ token diagnostic, Exceeds part token diagnostic) →
        ∃ before offender after token diagnostic,
          Stmt.parts tree = before ++ offender :: after ∧
          (∀ part ∈ before, ¬∃ token found, Exceeds part token found) ∧
          Exceeds offender token diagnostic ∧ token ∈ Source.tokens source ∧
          Program.ofSource source = .error diagnostic ∧ diagnostic.line = token.line ∧
          diagnostic.location = (" at '" : Text) ++ token.text ++ "'")) ∧
    ((∃ token ∈ Lox.tokens source, token.kind = .error) ∨ ¬Sentence (Source.tokens source) →
      ∃ diagnostic, Program.ofSource source = .error diagnostic ∧ ¬IsLimit diagnostic) := by
  refine ⟨fun tree isProgram => ?_, fun trouble => ?_⟩
  · have marks := isProgram.marks_sublist
    refine ⟨marks, fun exceeding => ?_⟩
    obtain ⟨diagnostic, excess⟩ := Option.isSome_iff_exists.mp (Stmt.isSome_excessOfList?.mpr exceeding)
    obtain ⟨before, offender, after, split, ⟨token, exceeds⟩, first⟩ :=
      Stmt.excessOfList?_eq_some_iff.mp excess
    have isToken : token ∈ (Stmt.parts tree).flatMap Part.marks := by
      refine List.mem_flatMap.mpr ⟨offender, ?_, exceeds.mem_marks⟩
      rw [split]
      exact List.mem_append_right _ List.mem_cons_self
    refine ⟨before, offender, after, token, diagnostic, split, first, exceeds, marks.subset isToken,
      ofSource_of_excess isProgram excess, ?_⟩
    cases exceeds <;> exact ⟨rfl, rfl⟩
  · have noSentence : ¬Sentence (Source.tokens source) := by
      obtain ⟨token, isToken, isError⟩ | noSentence := trouble
      · intro sentence
        obtain ⟨last, whole, isLast, -⟩ := tokens_eq source
        rw [whole, List.mem_append, List.mem_singleton] at isToken
        obtain isInside | rfl := isToken
        · exact sentence.freeOfErrors token isInside isError
        · cases isError.symm.trans isLast
      · exact noSentence
    obtain ⟨diagnostic, refused, noLimit⟩ := ofTokens_of_not_sentence noSentence
    exact ⟨diagnostic, ofSource_of_ofTokens refused, noLimit⟩

end Lox.Source
