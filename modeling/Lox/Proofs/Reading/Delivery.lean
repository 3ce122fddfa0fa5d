import Lox.Proofs.Grammar.Tokens
import Lox.Proofs.Reading.Language

/-!
# Readers that deliver

A reader delivers a value for some tokens when it takes exactly those, whatever stands behind
them, as long as that may follow. What may follow is a condition on the rest: mostly that it does
not begin with a token that would make the phrase longer.

Delivery goes through sequences of readers, so that of a whole phrase is put together from its
parts in the order of the grammar's rule.
-/

namespace Lox.Source.Parse

open Lox.Grammar

variable {α β : Type}

/-- A reader takes exactly some tokens and returns a value, whatever follows that may follow. -/
def Delivers (follow : List Token → Prop) (reader : Parse α) (tokens : List Token) (value : α) :
    Prop :=
  ∀ rest, follow rest → reader (tokens ++ rest) = .ok (value, rest)

variable {follow : List Token → Prop} {reader : Parse α} {tokens : List Token} {value : α}

/-- A reader delivers where less may follow. -/
theorem Delivers.mono {stricter : List Token → Prop}
    (delivers : Delivers follow reader tokens value) (inside : ∀ rest, stricter rest → follow rest) :
    Delivers stricter reader tokens value :=
  fun rest follows => delivers rest (inside rest follows)

/-- Readers in sequence deliver for tokens in sequence. -/
theorem Delivers.bind {next : α → Parse β} {last : List Token → Prop} {more : List Token}
    {final : β} (delivers : Delivers follow reader tokens value)
    (delivers' : Delivers last (next value) more final)
    (follows : ∀ rest, last rest → follow (more ++ rest)) :
    Delivers last (reader >>= next) (tokens ++ more) final := by
  intro rest isLast
  rw [bind_apply, List.append_assoc, delivers _ (follows rest isLast)]
  exact delivers' rest isLast

/-- A value that is there without reading. -/
theorem Delivers.pure (value : α) : Delivers follow (Pure.pure value : Parse α) [] value :=
  fun _ _ => rfl

/-- A reader of a changed value. -/
theorem Delivers.map (change : α → β) (delivers : Delivers follow reader tokens value) :
    Delivers follow (change <$> reader) tokens (change value) := by
  intro rest follows
  rw [map_eq_pure_bind, bind_apply, delivers rest follows]
  rfl

/-- A reader of which a value is made in the end. -/
theorem Delivers.bind_pure (change : α → β) (delivers : Delivers follow reader tokens value) :
    Delivers follow (reader >>= fun found => Pure.pure (change found)) tokens (change value) := by
  rw [bind_pure_comp]
  exact delivers.map change

/-- A token of the kind that has to come. -/
theorem Delivers.expect {token : Token} {kind : Kind} (isKind : token.kind = kind) :
    Delivers follow (Parse.expect kind) [token] token :=
  fun _ _ => if_pos isKind

/-- A token of the kind that has to come, and what follows it. -/
theorem Delivers.expect_bind {token : Token} {kind : Kind} {next : Token → Parse β} {final : β}
    (isKind : token.kind = kind) (delivers : Delivers follow (next token) tokens final) :
    Delivers follow (Parse.expect kind >>= next) (token :: tokens) final := by
  intro rest follows
  rw [bind_apply, List.cons_append, Parse.expect, if_pos isKind]
  exact delivers rest follows

/-- A token of a kind that may come, and what follows it. -/
theorem Delivers.accept_bind {token : Token} {kinds : List Kind} {next : Option Token → Parse β}
    {final : β} (isKind : token.kind ∈ kinds)
    (delivers : Delivers follow (next (some token)) tokens final) :
    Delivers follow (Parse.accept kinds >>= next) (token :: tokens) final := by
  intro rest follows
  rw [bind_apply, List.cons_append, Parse.accept, if_pos isKind]
  exact delivers rest follows

/-- A reader that may take a token of some kinds leaves tokens that begin with none of them. -/
theorem accept_of_avoids {kinds : List Kind} {tokens : List Token} (avoids : Avoids kinds tokens) :
    Parse.accept kinds tokens = .ok (none, tokens) := by
  cases tokens with
  | nil => rfl
  | cons token rest => rw [Parse.accept, if_neg (avoids_cons.mp avoids)]

/-- A run of tokens of some kinds is longer by one that stands in front of it. -/
theorem acceptAll_cons {kinds : List Kind} {token : Token} (isKind : token.kind ∈ kinds)
    (rest : List Token) :
    Parse.acceptAll kinds (token :: rest) =
      .ok (token :: rest.takeWhile (fun token => decide (token.kind ∈ kinds)),
        rest.dropWhile fun token => decide (token.kind ∈ kinds)) := by
  rw [acceptAll_apply, List.takeWhile_cons_of_pos (by simpa using isKind),
    List.dropWhile_cons_of_pos (by simpa using isKind)]

/-- A run of tokens of some kinds is empty before a token of another kind. -/
theorem acceptAll_of_avoids {kinds : List Kind} {tokens : List Token}
    (avoids : Avoids kinds tokens) : Parse.acceptAll kinds tokens = .ok ([], tokens) := by
  rw [acceptAll_apply]
  cases tokens with
  | nil => rfl
  | cons token rest =>
    have other : token.kind ∉ kinds := avoids_cons.mp avoids
    rw [List.takeWhile_cons_of_neg (by simpa using other),
      List.dropWhile_cons_of_neg (by simpa using other)]

/-- No token of the kinds that may come, and what follows instead. -/
theorem Delivers.accept_none_bind {kinds : List Kind} {next : Option Token → Parse β} {final : β}
    (avoids : ∀ rest, follow rest → Avoids kinds (tokens ++ rest))
    (delivers : Delivers follow (next none) tokens final) :
    Delivers follow (Parse.accept kinds >>= next) tokens final := by
  intro rest follows
  rw [bind_apply, accept_of_avoids (avoids rest follows)]
  exact delivers rest follows

/-- What follows a look at the next token knows its kind. -/
theorem peek_bind_apply (next : Option Kind → Parse β) (tokens : List Token) :
    (Parse.peek >>= next) tokens = next (tokens.head?.map Token.kind) tokens :=
  rfl

/-- A look at the next token, and what follows it. -/
theorem Delivers.peek_bind (seen : Option Kind) {next : Option Kind → Parse β} {final : β}
    (sees : ∀ rest, follow rest → (tokens ++ rest).head?.map Token.kind = seen)
    (delivers : Delivers follow (next seen) tokens final) :
    Delivers follow (Parse.peek >>= next) tokens final := by
  intro rest follows
  rw [peek_bind_apply, sees rest follows]
  exact delivers rest follows

/-- An item that is left out. -/
theorem Delivers.optionalBefore_none (kind : Kind) (item : Parse α) :
    Delivers (BeginsWith [kind]) (Parse.optionalBefore kind item) [] none := by
  refine Delivers.peek_bind (some kind) ?_ ?_
  · intro rest begins
    obtain ⟨token, others, rfl, isKind⟩ := begins
    simpa using isKind
  · rw [if_pos rfl]
    exact Delivers.pure none

/-- An item that is there. -/
theorem Delivers.optionalBefore_some {kind : Kind} (delivers : Delivers follow reader tokens value)
    (avoids : ∀ rest, Avoids [kind] (tokens ++ rest)) :
    Delivers follow (Parse.optionalBefore kind reader) tokens (some value) := by
  intro rest follows
  have other : (tokens ++ rest).head?.map Token.kind ≠ some kind := by
    intro same
    obtain ⟨token, isFirst, isKind⟩ := Option.map_eq_some_iff.mp same
    exact avoids rest token isFirst (by simp [isKind])
  have whole := delivers.map some rest follows
  rw [Parse.optionalBefore, peek_bind_apply, if_neg other]
  exact whole

/-- Items with commas between them. -/
theorem Delivers.separated {fuel : Nat} {firstTokens : List Token} {first : α}
    {others : List (Link α)} (enough : others.length < fuel)
    (delivers : Delivers follow reader firstTokens first)
    (commas : ∀ link ∈ others, link.joint.kind = .comma)
    (delivers' : ∀ link ∈ others, Delivers follow reader link.tokens link.tree)
    (comma : ∀ token rest, token.kind = .comma → follow (token :: rest)) :
    Delivers (fun rest => follow rest ∧ Avoids [.comma] rest) (Parse.separated reader fuel)
      (firstTokens ++ linked others) (first :: others.map fun link => link.tree) := by
  induction others generalizing fuel firstTokens first with
  | nil =>
    obtain ⟨fuel, rfl⟩ := Nat.exists_eq_succ_of_ne_zero (Nat.ne_zero_of_lt enough)
    refine delivers.bind ?_ fun rest follows => follows.1
    exact Delivers.accept_none_bind (fun rest follows => follows.2) (Delivers.pure [first])
  | cons link rest ih =>
    obtain ⟨fuel, rfl⟩ := Nat.exists_eq_succ_of_ne_zero (Nat.ne_zero_of_lt enough)
    have isComma : link.joint.kind = .comma := commas link (by simp)
    refine delivers.bind ?_ fun rest _ => comma link.joint _ isComma
    apply Delivers.accept_bind (by simp [isComma])
    refine (ih (by simpa using enough) (delivers' link (by simp)) ?_ ?_).bind_pure
      fun others => first :: others
    · exact fun link member => commas link (by simp [member])
    · exact fun link member => delivers' link (by simp [member])

/-- Items that follow one another up to a token or the end. -/
theorem Delivers.itemsUntil {stop : Option Kind} {fuel : Nat} {items : List (Phrase α)}
    (enough : items.length ≤ fuel)
    (delivers : ∀ item ∈ items, Delivers follow reader item.tokens item.tree)
    (follows : ∀ item ∈ items, ∀ rest, follow (item.tokens ++ rest))
    (goesOn : ∀ item ∈ items, ∀ rest, (item.tokens ++ rest).head?.map Token.kind ≠ stop) :
    Delivers (fun rest => follow rest ∧ rest.head?.map Token.kind = stop)
      (Parse.itemsUntil stop reader fuel) (spelled items) (items.map Phrase.tree) := by
  induction items generalizing fuel with
  | nil =>
    cases fuel with
    | zero => exact Delivers.pure []
    | succ fuel =>
      apply Delivers.peek_bind stop (fun rest isLast => isLast.2)
      rw [if_pos rfl]
      exact Delivers.pure []
  | cons item items ih =>
    obtain ⟨fuel, rfl⟩ := Nat.exists_eq_succ_of_ne_zero (Nat.ne_zero_of_lt enough)
    have shorter : items.length ≤ fuel := by simpa using enough
    have inner := ih shorter
      (fun item member => delivers item (by simp [member]))
      (fun item member => follows item (by simp [member]))
      (fun item member => goesOn item (by simp [member]))
    have next (rest : List Token) (isLast : follow rest ∧ rest.head?.map Token.kind = stop) :
        follow (spelled items ++ rest) := by
      cases items with
      | nil => exact isLast.1
      | cons second others =>
        simpa [spelled] using follows second (by simp) (spelled others ++ rest)
    have whole : Delivers (fun rest => follow rest ∧ rest.head?.map Token.kind = stop)
        (reader >>= fun first => Parse.itemsUntil stop reader fuel >>= fun others =>
          Pure.pure (first :: others)) (item.tokens ++ spelled items)
        (item.tree :: items.map Phrase.tree) :=
      (delivers item (by simp)).bind (inner.bind_pure fun others => item.tree :: others) next
    intro rest isLast
    have other := goesOn item (by simp) (spelled items ++ rest)
    rw [← List.append_assoc] at other
    change Parse.itemsUntil stop reader (fuel + 1) ((item.tokens ++ spelled items) ++ rest) = _
    rw [Parse.itemsUntil, peek_bind_apply, if_neg other]
    exact whole rest isLast

end Lox.Source.Parse
