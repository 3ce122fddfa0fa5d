import Lox.Proofs.Grammar.Derivation
import Mathlib.Data.List.TakeDrop
import Mathlib.Data.List.TakeWhile

/-!
# Readers and languages

A reader reads a language when whatever it takes before it succeeds is in the language with the
value that it returns, and whatever it takes before it fails is the beginning of something in the
language. So a failing reader never goes past the last token that could still be right.

Readers in sequence read the joint language. Nothing here depends on how much fuel a reader has:
one that stops early has still taken the beginning of something.
-/

namespace Lox.Source.Parse

open Lox.Grammar

variable {α β : Type}

/-- Everything that a reader takes is in a language if it succeeds, and the beginning of something
in the language if it fails. -/
def Reads (language : List Token → α → Prop) (reader : Parse α) : Prop :=
  ∀ tokens,
    match reader tokens with
    | .ok (value, rest) => ∃ taken, tokens = taken ++ rest ∧ language taken value
    | .error failure =>
      ∃ taken, tokens = taken ++ failure.rest ∧ ∃ more value, language (taken ++ more) value

/-- One language after another, which may depend on the value of the first. -/
def Followed (first : List Token → α → Prop) (second : α → List Token → β → Prop) :
    List Token → β → Prop :=
  fun tokens value =>
    ∃ before inner after, first before inner ∧ second inner after value ∧ tokens = before ++ after

/-- A reader in sequence with another passes its value and its rest on. -/
theorem bind_apply (reader : Parse α) (next : α → Parse β) (tokens : List Token) :
    (reader >>= next) tokens =
      match reader tokens with
      | .ok (value, rest) => next value rest
      | .error failure => .error failure := by
  change (reader tokens).bind (fun result => next result.1 result.2) = _
  cases reader tokens <;> rfl

/-- A successful reader takes something in its language. -/
theorem Reads.taken {language : List Token → α → Prop} {reader : Parse α}
    (reads : Reads language reader) {tokens rest : List Token} {value : α}
    (done : reader tokens = .ok (value, rest)) :
    ∃ taken, tokens = taken ++ rest ∧ language taken value := by
  have result := reads tokens
  rwa [done] at result

/-- A failing reader takes the beginning of something in its language. -/
theorem Reads.begun {language : List Token → α → Prop} {reader : Parse α}
    (reads : Reads language reader) {tokens : List Token} {failure : Failure}
    (failed : reader tokens = .error failure) :
    ∃ taken, tokens = taken ++ failure.rest ∧ ∃ more value, language (taken ++ more) value := by
  have result := reads tokens
  rwa [failed] at result

/-- A reader of a language without the empty list takes a token when it succeeds. -/
theorem Reads.takes {language : List Token → α → Prop} {reader : Parse α}
    (reads : Reads language reader) (nonempty : ∀ tokens value, language tokens value → tokens ≠ [])
    (tokens : List Token) (value : α) (rest : List Token)
    (done : reader tokens = .ok (value, rest)) : rest.length < tokens.length := by
  obtain ⟨taken, rfl, member⟩ := reads.taken done
  have positive := List.length_pos_iff.mpr (nonempty taken value member)
  rw [List.length_append]
  omega

/-- A language that has a reader is not empty. -/
theorem Reads.inhabited {language : List Token → α → Prop} {reader : Parse α}
    (reads : Reads language reader) : ∃ tokens value, language tokens value := by
  cases result : reader [] with
  | ok success =>
    obtain ⟨taken, -, inside⟩ := reads.taken result
    exact ⟨taken, success.1, inside⟩
  | error failure =>
    obtain ⟨taken, -, more, value, inside⟩ := reads.begun result
    exact ⟨taken ++ more, value, inside⟩

/-- A reader of a language reads every larger language. -/
theorem Reads.mono {language larger : List Token → α → Prop} {reader : Parse α}
    (reads : Reads language reader)
    (inside : ∀ tokens value, language tokens value → larger tokens value) :
    Reads larger reader := by
  intro tokens
  cases result : reader tokens with
  | ok success =>
    obtain ⟨taken, split, member⟩ := reads.taken result
    exact ⟨taken, split, inside _ _ member⟩
  | error failure =>
    obtain ⟨taken, split, more, value, member⟩ := reads.begun result
    exact ⟨taken, split, more, value, inside _ _ member⟩

/-- Readers in sequence read one language after the other. -/
theorem Reads.bind {first : List Token → α → Prop} {reader : Parse α} {next : α → Parse β}
    (second : α → List Token → β → Prop) (reads : Reads first reader)
    (follows : ∀ value tokens, first tokens value → Reads (second value) (next value)) :
    Reads (Followed first second) (reader >>= next) := by
  intro tokens
  rw [bind_apply]
  cases result : reader tokens with
  | error failure =>
    obtain ⟨taken, split, more, value, member⟩ := reads.begun result
    obtain ⟨after, final, finalMember⟩ := (follows value _ member).inhabited
    exact ⟨taken, split, more ++ after, final, taken ++ more, value, after, member, finalMember,
      (List.append_assoc taken more after).symm⟩
  | ok success =>
    obtain ⟨value, rest⟩ := success
    obtain ⟨taken, split, member⟩ := reads.taken result
    have reads' := follows value taken member
    change match next value rest with
      | .ok (final, last) => ∃ taken, tokens = taken ++ last ∧ Followed first second taken final
      | .error failure =>
        ∃ taken, tokens = taken ++ failure.rest ∧
          ∃ more final, Followed first second (taken ++ more) final
    cases result' : next value rest with
    | ok success' =>
      obtain ⟨taken', split', member'⟩ := reads'.taken result'
      refine ⟨taken ++ taken', ?_, taken, value, taken', member, member', rfl⟩
      rw [split, split', List.append_assoc]
    | error failure =>
      obtain ⟨taken', split', more, final, member'⟩ := reads'.begun result'
      refine ⟨taken ++ taken', ?_, more, final, taken, value, taken' ++ more, member, member', ?_⟩
      · rw [split, split', List.append_assoc]
      · rw [List.append_assoc]

/-- A value that is there without reading takes nothing. -/
theorem Reads.pure (value : α) :
    Reads (fun tokens result => tokens = [] ∧ result = value) (Pure.pure value : Parse α) :=
  fun _ => ⟨[], rfl, rfl, rfl⟩

/-- A reader of a changed value. -/
theorem Reads.map {language : List Token → α → Prop} {reader : Parse α} (change : α → β)
    (reads : Reads language reader) :
    Reads (fun tokens result => ∃ value, language tokens value ∧ result = change value)
      (change <$> reader) := by
  rw [map_eq_pure_bind]
  refine (reads.bind _ fun value _ _ => Reads.pure (change value)).mono ?_
  intro tokens result followed
  obtain ⟨before, value, after, member, ⟨rfl, rfl⟩, rfl⟩ := followed
  exact ⟨value, by simpa using member, rfl⟩

/-- A failure takes nothing, which begins everything. -/
theorem Reads.fail {language : List Token → α → Prop}
    (inhabited : ∃ tokens value, language tokens value) : Reads language Parse.fail :=
  fun _ => ⟨[], rfl, inhabited⟩

/-- A failure at an operand takes nothing. -/
theorem Reads.failTarget {language : List Token → α → Prop}
    (inhabited : ∃ tokens value, language tokens value) : Reads language Parse.failTarget :=
  fun _ => ⟨[], rfl, inhabited⟩

/-- A look at the next token takes nothing. -/
theorem Reads.peek : Reads (fun tokens _ => tokens = []) Parse.peek :=
  fun _ => ⟨[], rfl, rfl⟩

/-- A token that has to be of a kind is read as such. -/
theorem Reads.expect (kind : Kind) :
    Reads (fun tokens token => tokens = [token] ∧ token.kind = kind) (Parse.expect kind) := by
  have inhabited : ∃ (tokens : List Token) (token : Token), tokens = [token] ∧ token.kind = kind :=
    ⟨[⟨kind, [], 0⟩], ⟨kind, [], 0⟩, rfl, rfl⟩
  intro tokens
  cases tokens with
  | nil => exact ⟨[], rfl, inhabited⟩
  | cons token rest =>
    by_cases isKind : token.kind = kind
    · rw [Parse.expect, if_pos isKind]
      exact ⟨[token], rfl, rfl, isKind⟩
    · rw [Parse.expect, if_neg isKind]
      exact ⟨[], rfl, inhabited⟩

/-- A token that may be of some kinds is read if it is. -/
theorem Reads.accept (kinds : List Kind) :
    Reads
      (fun tokens found =>
        (found = none ∧ tokens = []) ∨
          ∃ token, found = some token ∧ token.kind ∈ kinds ∧ tokens = [token])
      (Parse.accept kinds) := by
  intro tokens
  cases tokens with
  | nil => exact ⟨[], rfl, .inl ⟨rfl, rfl⟩⟩
  | cons token rest =>
    by_cases isKind : token.kind ∈ kinds
    · rw [Parse.accept, if_pos isKind]
      exact ⟨[token], rfl, .inr ⟨token, rfl, isKind, rfl⟩⟩
    · rw [Parse.accept, if_neg isKind]
      exact ⟨[], rfl, .inl ⟨rfl, rfl⟩⟩

/-- A run of tokens of some kinds goes up to the first token of another kind. -/
theorem acceptAll_apply (kinds : List Kind) (tokens : List Token) :
    Parse.acceptAll kinds tokens =
      .ok (tokens.takeWhile (fun token => decide (token.kind ∈ kinds)),
        tokens.dropWhile fun token => decide (token.kind ∈ kinds)) := by
  rw [← List.span_eq_takeWhile_dropWhile]
  rfl

/-- A run of tokens of some kinds is read as such. -/
theorem Reads.acceptAll (kinds : List Kind) :
    Reads (fun tokens run => tokens = run ∧ ∀ token ∈ run, token.kind ∈ kinds)
      (Parse.acceptAll kinds) := by
  intro tokens
  rw [acceptAll_apply]
  refine ⟨_, List.takeWhile_append_dropWhile.symm, rfl, ?_⟩
  intro token member
  simpa using List.mem_takeWhile_imp member

/-- An item that may be left out is read as one that is there or is not. -/
theorem Reads.optionalBefore {language : List Token → α → Prop} {item : Parse α} (kind : Kind)
    (reads : Reads language item) :
    Reads
      (fun tokens found =>
        (found = none ∧ tokens = []) ∨ ∃ value, found = some value ∧ language tokens value)
      (Parse.optionalBefore kind item) := by
  refine (Reads.peek.bind
    (fun _ tokens found =>
      (found = none ∧ tokens = []) ∨ ∃ value, found = some value ∧ language tokens value)
    fun next _ _ => ?_).mono ?_
  · split
    · exact (Reads.pure none).mono fun tokens found ⟨empty, isNone⟩ => .inl ⟨isNone, empty⟩
    · exact (reads.map some).mono fun tokens found ⟨value, member, isSome⟩ =>
        .inr ⟨value, isSome, member⟩
  · intro tokens found followed
    obtain ⟨before, next, after, rfl, member, rfl⟩ := followed
    exact member

/-- Items of a language with commas between them. -/
def Separated (language : List Token → α → Prop) (tokens : List Token) (values : List α) : Prop :=
  ∃ (firstTokens : List Token) (first : α) (others : List (Link α)),
    language firstTokens first ∧ (∀ link ∈ others, link.joint.kind = .comma) ∧
      (∀ link ∈ others, language link.tokens link.tree) ∧
      tokens = firstTokens ++ linked others ∧ values = first :: others.map fun link => link.tree

/-- Items of a language that follow one another. -/
def Repeated (language : List Token → α → Prop) (tokens : List Token) (values : List α) : Prop :=
  ∃ items : List (Phrase α), (∀ item ∈ items, language item.tokens item.tree) ∧
    tokens = spelled items ∧ values = items.map Phrase.tree

/-- One item alone needs no commas. -/
theorem Separated.single {language : List Token → α → Prop} {tokens : List Token} {value : α}
    (member : language tokens value) : Separated language tokens [value] :=
  ⟨tokens, value, [], member, by simp, by simp, by simp [linked], rfl⟩

/-- One more item in front, with a comma behind it. -/
theorem Separated.cons {language : List Token → α → Prop} {tokens rest : List Token}
    {comma : Token} {value : α} {values : List α} (member : language tokens value)
    (isComma : comma.kind = .comma) (separated : Separated language rest values) :
    Separated language (tokens ++ comma :: rest) (value :: values) := by
  obtain ⟨firstTokens, first, others, firstMember, commas, members, rfl, rfl⟩ := separated
  refine ⟨tokens, value, ⟨⟨firstTokens, first⟩, comma⟩ :: others, member, ?_, ?_, ?_, rfl⟩
  · simpa [isComma] using commas
  · simpa [firstMember] using members
  · simp [linked]

/-- No items take no tokens. -/
theorem Repeated.empty {language : List Token → α → Prop} (tokens : List Token) (values : List α)
    (nothing : tokens = [] ∧ values = []) : Repeated language tokens values :=
  ⟨[], by simp, nothing.1, nothing.2⟩

/-- One more item in front. -/
theorem Repeated.cons {language : List Token → α → Prop} {tokens rest : List Token} {value : α}
    {values : List α} (member : language tokens value) (repeated : Repeated language rest values) :
    Repeated language (tokens ++ rest) (value :: values) := by
  obtain ⟨items, members, rfl, rfl⟩ := repeated
  exact ⟨⟨tokens, value⟩ :: items, by simpa [member] using members, by simp [spelled], rfl⟩

/-- Items with commas between them are read as such. -/
theorem Reads.separated {language : List Token → α → Prop} {item : Parse α}
    (reads : Reads language item) (fuel : Nat) :
    Reads (Separated language) (Parse.separated item fuel) := by
  induction fuel with
  | zero =>
    obtain ⟨tokens, value, member⟩ := reads.inhabited
    exact Reads.fail ⟨tokens, [value], Separated.single member⟩
  | succ fuel ih =>
    refine (reads.bind _ fun first _ _ => (Reads.accept [.comma]).bind
      (fun found tokens values =>
        (found = none ∧ tokens = [] ∧ values = [first]) ∨
          ∃ token others, found = some token ∧ Separated language tokens others ∧
            values = first :: others)
      fun found _ _ => ?_).mono ?_
    · cases found with
      | none => exact (Reads.pure [first]).mono fun _ _ ⟨empty, single⟩ => .inl ⟨rfl, empty, single⟩
      | some token =>
        refine (ih.bind _ fun others _ _ => Reads.pure (first :: others)).mono ?_
        intro _ _ followed
        obtain ⟨before, others, after, member, ⟨rfl, rfl⟩, rfl⟩ := followed
        exact .inr ⟨token, others, rfl, by simpa using member, rfl⟩
    · intro _ values followed
      obtain ⟨tokens, first, _, member, ⟨before, found, after, accepted, next, rfl⟩, rfl⟩ :=
        followed
      rcases accepted with ⟨rfl, rfl⟩ | ⟨comma, rfl, isComma, rfl⟩
      · obtain ⟨-, rfl, rfl⟩ | ⟨_, _, impossible, -⟩ := next
        · simpa using Separated.single member
        · simp at impossible
      · obtain ⟨impossible, -⟩ | ⟨token, others, -, separated, rfl⟩ := next
        · simp at impossible
        · exact Separated.cons member (by simpa using isComma) separated

/-- Items up to a token are read as items that follow one another. -/
theorem Reads.itemsUntil {language : List Token → α → Prop} {item : Parse α} (stop : Option Kind)
    (reads : Reads language item) (fuel : Nat) :
    Reads (Repeated language) (Parse.itemsUntil stop item fuel) := by
  induction fuel with
  | zero =>
    exact (Reads.pure []).mono Repeated.empty
  | succ fuel ih =>
    refine (Reads.peek.bind (fun _ => Repeated language) fun next _ _ => ?_).mono ?_
    · split
      · exact (Reads.pure []).mono Repeated.empty
      · refine (reads.bind _ fun first _ _ =>
          ih.bind _ fun others _ _ => Reads.pure (first :: others)).mono ?_
        intro _ _ followed
        obtain ⟨tokens, first, _, member, ⟨rest, others, _, repeated, ⟨rfl, rfl⟩, rfl⟩, rfl⟩ :=
          followed
        simpa using Repeated.cons member repeated
    · intro _ _ followed
      obtain ⟨_, _, _, rfl, repeated, rfl⟩ := followed
      exact repeated

end Lox.Source.Parse
