import Lox.Proofs.Reading.Lookahead

/-!
# Readers at a fork

Two lists of tokens go on with an equals sign and with a star behind the same beginning. A reader does the
same on both as long as it is in the beginning. If it stops there, it stops in both at the same place. If
it goes further, either the equals sign is taken, or the star is an operator behind a complete operand, and
the equals sign is left to the reader around or is reported.

Readers in sequence part like this if each of them does.
-/

namespace Lox.Source.Parse

variable {α β : Type}

/-- A reader that goes forward only, and that reports a wrong target at equals signs only. -/
structure Steady (reader : Parse α) : Prop where
  shrinks : ∀ tokens, (left (reader tokens)).length ≤ tokens.length
  reports : ∀ tokens rest, reader tokens = .error ⟨true, rest⟩ →
    ∃ token more, rest = token :: more ∧ token.kind = .equal

/-- An equals sign and a star with what stands behind each of them. -/
structure Fork where
  equal : Token
  behindEqual : List Token
  star : Token
  behindStar : List Token
  isEqual : equal.kind = .equal
  isStar : star.kind = .star

namespace Fork

/-- The tokens from the equals sign on. -/
def assigned (fork : Fork) : List Token :=
  fork.equal :: fork.behindEqual

/-- The tokens from the star on. -/
def multiplied (fork : Fork) : List Token :=
  fork.star :: fork.behindStar

end Fork

/-- What a reader does before an equals sign and before a star that stand behind the same tokens. The
reader of an operand may leave the equals sign to others, where the star goes on with the operand. -/
inductive Parting (fork : Fork) (isOperand : Bool) :
    Except Failure (α × List Token) → Except Failure (α × List Token) → Prop
  | ended {value : α} {behind : List Token} :
      (isOperand → behind ≠ []) →
      Parting fork isOperand (.ok (value, behind ++ fork.assigned))
        (.ok (value, behind ++ fork.multiplied))
  | failed {invalidTarget : Bool} {behind : List Token} :
      (behind = [] → invalidTarget = false) →
      Parting fork isOperand (.error ⟨invalidTarget, behind ++ fork.assigned⟩)
        (.error ⟨invalidTarget, behind ++ fork.multiplied⟩)
  | passed {first second : Except Failure (α × List Token)} :
      (left first).length ≤ fork.behindEqual.length → Parting fork isOperand first second
  | refused {second : Except Failure (α × List Token)} :
      (left second).length ≤ fork.behindStar.length →
      Parting fork isOperand (.error ⟨true, fork.assigned⟩) second
  | waiting {value : α} {second : Except Failure (α × List Token)} :
      isOperand → (left second).length ≤ fork.behindStar.length →
      Parting fork isOperand (.ok (value, fork.assigned)) second

/-- A steady reader parts at a fork that stands behind less tokens than a bound. -/
structure Parts (fork : Fork) (isOperand : Bool) (bound : Nat) (reader : Parse α) : Prop
    extends Steady reader where
  parts : ∀ taken : List Token, taken.length < bound →
    Parting fork isOperand (reader (taken ++ fork.assigned)) (reader (taken ++ fork.multiplied))

variable {fork : Fork} {isOperand : Bool} {bound : Nat} {reader : Parse α} {next : α → Parse β}

/-- A reader that parts does so below a smaller bound, too. -/
theorem Parts.mono {smaller : Nat} (parts : Parts fork isOperand bound reader)
    (less : smaller ≤ bound) : Parts fork isOperand smaller reader :=
  ⟨parts.toSteady, fun taken short => parts.parts taken (by omega)⟩

/-- Steady readers in sequence are steady. -/
theorem Steady.bind (steady : Steady reader) (follow : ∀ value, Steady (next value)) :
    Steady (reader >>= next) where
  shrinks tokens := by
    have first := steady.shrinks tokens
    rw [bind_apply]
    cases result : reader tokens with
    | error failure => rwa [result] at first
    | ok success =>
      rw [result] at first
      exact ((follow success.1).shrinks success.2).trans first
  reports tokens rest failed := by
    rw [bind_apply] at failed
    cases result : reader tokens with
    | error failure =>
      rw [result] at failed
      cases failed
      exact steady.reports tokens rest result
    | ok success =>
      rw [result] at failed
      exact (follow success.1).reports success.2 rest failed

/-- A sequence has gone as far as its first reader, at least. -/
theorem Steady.length_bind_le (follow : ∀ value, Steady (next value)) {tokens : List Token} {count : Nat}
    (gone : (left (reader tokens)).length ≤ count) :
    (left ((reader >>= next) tokens)).length ≤ count := by
  rw [bind_apply]
  cases result : reader tokens with
  | error failure => rwa [result] at gone
  | ok success =>
    rw [result] at gone
    exact ((follow success.1).shrinks success.2).trans gone

/-- Readers in sequence part where the first does, or where the second does behind it. An equals sign that
waits is left to the second. -/
theorem Parting.bind {wasOperand : Bool} {taken : List Token}
    (parting : Parting fork wasOperand (reader (taken ++ fork.assigned))
      (reader (taken ++ fork.multiplied)))
    (steady : ∀ value, Steady (next value))
    (follow : ∀ value behind, (wasOperand → behind ≠ []) →
      reader (taken ++ fork.assigned) = .ok (value, behind ++ fork.assigned) →
      Parting fork isOperand (next value (behind ++ fork.assigned))
        (next value (behind ++ fork.multiplied)))
    (waits : wasOperand → ∀ value second, (left second).length ≤ fork.behindStar.length →
      Parting fork isOperand (next value fork.assigned) second) :
    Parting fork isOperand ((reader >>= next) (taken ++ fork.assigned))
      ((reader >>= next) (taken ++ fork.multiplied)) := by
  have goneBehindEqual := @Steady.length_bind_le α β reader next steady (taken ++ fork.assigned)
    fork.behindEqual.length
  have goneBehindStar := @Steady.length_bind_le α β reader next steady (taken ++ fork.multiplied)
    fork.behindStar.length
  generalize onEqual : reader (taken ++ fork.assigned) = first at parting
  generalize onStar : reader (taken ++ fork.multiplied) = second at parting
  cases parting with
  | @ended value behind isBehind =>
    rw [bind_apply, bind_apply, onEqual, onStar]
    exact follow value behind isBehind onEqual
  | failed unreported =>
    rw [bind_apply, bind_apply, onEqual, onStar]
    exact .failed unreported
  | passed gone => exact .passed (goneBehindEqual (by rwa [onEqual]))
  | refused gone =>
    rw [bind_apply, onEqual]
    exact .refused (goneBehindStar (by rwa [onStar]))
  | @waiting value _ wasOperand gone =>
    have waited := waits wasOperand value _ (goneBehindStar (by rwa [onStar]))
    rwa [bind_apply reader next (taken ++ fork.assigned), onEqual]

/-- A reader that ends behind the beginning leaves no more of it than there was. -/
theorem Steady.length_behind_le (steady : Steady reader) {taken behind : List Token} {value : α}
    (done : reader (taken ++ fork.assigned) = .ok (value, behind ++ fork.assigned)) :
    behind.length ≤ taken.length := by
  have shrinks := steady.shrinks (taken ++ fork.assigned)
  rw [done] at shrinks
  simpa [left] using shrinks

/-- Readers in sequence part when each does. -/
theorem Parts.bind (parts : Parts fork false bound reader)
    (follow : ∀ value, Parts fork isOperand bound (next value)) :
    Parts fork isOperand bound (reader >>= next) where
  toSteady := parts.toSteady.bind fun value => (follow value).toSteady
  parts taken short := by
    refine (parts.parts taken short).bind (fun value => (follow value).toSteady) ?_ (absurd · Bool.false_ne_true)
    intro value behind _ done
    have shrinks := parts.length_behind_le done
    exact (follow value).parts behind (by omega)

/-- Whatever follows a reader that takes a token has one token less before the fork. -/
theorem Parts.bind_of_takes (parts : Parts fork false (bound + 1) reader)
    (takes : ∀ tokens value rest, reader tokens = .ok (value, rest) → rest.length < tokens.length)
    (follow : ∀ value, Parts fork isOperand bound (next value)) :
    Parts fork isOperand (bound + 1) (reader >>= next) where
  toSteady := parts.toSteady.bind fun value => (follow value).toSteady
  parts taken short := by
    refine (parts.parts taken short).bind (fun value => (follow value).toSteady) ?_ (absurd · Bool.false_ne_true)
    intro value behind _ done
    have shrinks := takes _ _ _ done
    simp only [List.length_append] at shrinks
    exact (follow value).parts behind (by omega)

/-- A value that is there without reading. -/
theorem Parts.pure (value : α) : Parts fork false bound (Pure.pure value : Parse α) where
  shrinks _ := Nat.le_refl _
  reports _ _ failed := nomatch failed
  parts _ _ := .ended (absurd · Bool.false_ne_true)

/-- A failure at the next token. -/
theorem Parts.fail : Parts fork false bound (Parse.fail : Parse α) where
  shrinks _ := Nat.le_refl _
  reports _ _ failed := nomatch failed
  parts _ _ := .failed fun _ => rfl

/-- A changed value. -/
theorem Parts.map (change : α → β) (parts : Parts fork false bound reader) :
    Parts fork false bound (change <$> reader) := by
  rw [map_eq_pure_bind]
  exact parts.bind fun value => Parts.pure (change value)

/-- A token that has to be of a kind that is neither of those at the fork. -/
theorem Parts.expect (kind : Kind) (isOther : kind ≠ .equal ∧ kind ≠ .star) :
    Parts fork false bound (Parse.expect kind) where
  shrinks tokens := by
    cases tokens with
    | nil => exact Nat.le_refl _
    | cons token rest =>
      by_cases isKind : token.kind = kind
      · rw [Parse.expect, if_pos isKind]
        exact Nat.le_succ _
      · rw [Parse.expect, if_neg isKind]
        exact Nat.le_refl _
  reports tokens rest failed := by
    cases tokens with
    | nil => cases failed
    | cons token rest =>
      by_cases isKind : token.kind = kind
      · rw [Parse.expect, if_pos isKind] at failed
        cases failed
      · rw [Parse.expect, if_neg isKind] at failed
        cases failed
  parts taken _ := by
    cases taken with
    | nil =>
      have onEqual : Parse.expect kind fork.assigned = .error ⟨false, fork.assigned⟩ :=
        if_neg (by rw [fork.isEqual]; exact isOther.1.symm)
      have onStar : Parse.expect kind fork.multiplied = .error ⟨false, fork.multiplied⟩ :=
        if_neg (by rw [fork.isStar]; exact isOther.2.symm)
      rw [List.nil_append, List.nil_append, onEqual, onStar]
      exact @Parting.failed _ fork false false [] fun _ => rfl
    | cons token behind =>
      by_cases isKind : token.kind = kind
      · have done (rest : List Token) : Parse.expect kind (token :: rest) = .ok (token, rest) :=
          if_pos isKind
        rw [List.cons_append, List.cons_append, done, done]
        exact .ended (absurd · Bool.false_ne_true)
      · have stays (rest : List Token) :
            Parse.expect kind (token :: rest) = .error ⟨false, token :: rest⟩ := if_neg isKind
        rw [List.cons_append, List.cons_append, stays, stays]
        exact @Parting.failed _ fork false false (token :: behind) fun _ => rfl

/-- A token that may be of some kinds is read forward. -/
theorem Steady.accept (kinds : List Kind) : Steady (Parse.accept kinds) where
  shrinks tokens := by
    cases tokens with
    | nil => exact Nat.le_refl _
    | cons token rest =>
      by_cases isKind : token.kind ∈ kinds
      · rw [Parse.accept, if_pos isKind]
        exact Nat.le_succ _
      · rw [Parse.accept, if_neg isKind]
        exact Nat.le_refl _
  reports tokens rest failed := by
    cases tokens with
    | nil => cases failed
    | cons token rest =>
      by_cases isKind : token.kind ∈ kinds
      · rw [Parse.accept, if_pos isKind] at failed
        cases failed
      · rw [Parse.accept, if_neg isKind] at failed
        cases failed

/-- A token that may be of some kinds, among them no star. -/
theorem Parts.accept (kinds : List Kind) (noStar : .star ∉ kinds) :
    Parts fork false bound (Parse.accept kinds) where
  toSteady := Steady.accept kinds
  parts taken _ := by
    cases taken with
    | nil =>
      by_cases isEqual : .equal ∈ kinds
      · have onEqual : Parse.accept kinds fork.assigned = .ok (some fork.equal, fork.behindEqual) :=
          if_pos (by rwa [fork.isEqual])
        rw [List.nil_append, onEqual]
        exact .passed (Nat.le_refl _)
      · have onEqual : Parse.accept kinds fork.assigned = .ok (none, fork.assigned) :=
          if_neg (by rwa [fork.isEqual])
        have onStar : Parse.accept kinds fork.multiplied = .ok (none, fork.multiplied) :=
          if_neg (by rwa [fork.isStar])
        rw [List.nil_append, List.nil_append, onEqual, onStar]
        exact @Parting.ended _ fork false none [] (absurd · Bool.false_ne_true)
    | cons token behind =>
      by_cases isKind : token.kind ∈ kinds
      · have done (rest : List Token) : Parse.accept kinds (token :: rest) = .ok (some token, rest) :=
          if_pos isKind
        rw [List.cons_append, List.cons_append, done, done]
        exact .ended (absurd · Bool.false_ne_true)
      · have stays (rest : List Token) :
            Parse.accept kinds (token :: rest) = .ok (none, token :: rest) := if_neg isKind
        rw [List.cons_append, List.cons_append, stays, stays]
        exact @Parting.ended _ fork false none (token :: behind) (absurd · Bool.false_ne_true)

/-- A token that may be of some kinds, and what follows it if it is or is not. -/
theorem Parts.accept_bind {next : Option Token → Parse β} (kinds : List Kind)
    (noStar : .star ∉ kinds) (without : Parts fork isOperand (bound + 1) (next none))
    (follow : ∀ token, Parts fork isOperand bound (next (some token))) :
    Parts fork isOperand (bound + 1) (Parse.accept kinds >>= next) := by
  have steady (found : Option Token) : Steady (next found) := by
    cases found with
    | none => exact without.toSteady
    | some token => exact (follow token).toSteady
  refine ⟨(Steady.accept kinds).bind steady, fun taken short => ?_⟩
  refine ((Parts.accept kinds noStar).parts taken short).bind steady ?_ (absurd · Bool.false_ne_true)
  intro found behind _ done
  cases taken with
  | nil =>
    by_cases isEqual : .equal ∈ kinds
    · have onEqual : Parse.accept kinds fork.assigned = .ok (some fork.equal, fork.behindEqual) :=
        if_pos (by rwa [fork.isEqual])
      rw [List.nil_append, onEqual] at done
      have lengths := congrArg (fun result => (left result).length) done
      simp [left, Fork.assigned] at lengths
      omega
    · have onEqual : Parse.accept kinds fork.assigned = .ok (none, fork.assigned) :=
        if_neg (by rwa [fork.isEqual])
      rw [List.nil_append, onEqual] at done
      obtain ⟨rfl, same⟩ : none = found ∧ fork.assigned = behind ++ fork.assigned := by
        simpa using done
      obtain rfl := List.self_eq_append_left.mp same
      exact without.parts [] short
  | cons token rest =>
    rw [List.cons_append] at done
    by_cases isKind : token.kind ∈ kinds
    · rw [Parse.accept, if_pos isKind] at done
      obtain ⟨rfl, same⟩ : some token = found ∧ rest ++ fork.assigned = behind ++ fork.assigned := by
        simpa using done
      obtain rfl := List.append_cancel_right same
      exact (follow token).parts rest (Nat.lt_of_succ_lt_succ short)
    · rw [Parse.accept, if_neg isKind, ← List.cons_append] at done
      obtain ⟨rfl, same⟩ : none = found ∧
          token :: rest ++ fork.assigned = behind ++ fork.assigned := by
        simpa using done
      obtain rfl := List.append_cancel_right same
      exact without.parts (token :: rest) short

/-- A run of tokens of some kinds goes no further than a token of another kind. -/
theorem acceptAll_append {kinds : List Kind} (taken : List Token) {token : Token}
    (stops : token.kind ∉ kinds) (rest : List Token) :
    Parse.acceptAll kinds (taken ++ token :: rest) =
      .ok (taken.takeWhile (fun token => decide (token.kind ∈ kinds)),
        taken.dropWhile (fun token => decide (token.kind ∈ kinds)) ++ token :: rest) := by
  rw [acceptAll_apply]
  induction taken with
  | nil => simp [stops]
  | cons first taken ih =>
    simp only [List.cons_append, List.takeWhile_cons, List.dropWhile_cons]
    split
    · simpa using ih
    · rfl

/-- A run of tokens of some kinds that are neither of those at the fork. -/
theorem Parts.acceptAll (kinds : List Kind) (noEqual : .equal ∉ kinds) (noStar : .star ∉ kinds) :
    Parts fork false bound (Parse.acceptAll kinds) where
  shrinks tokens := by
    rw [acceptAll_apply]
    exact (List.dropWhile_suffix _).length_le
  reports tokens rest failed := by
    rw [acceptAll_apply] at failed
    cases failed
  parts taken _ := by
    rw [Fork.assigned, Fork.multiplied, acceptAll_append _ (by rwa [fork.isEqual]),
      acceptAll_append _ (by rwa [fork.isStar])]
    exact .ended (absurd · Bool.false_ne_true)

/-- Two readers of which the next token chooses one, where neither of those at the fork chooses the
first. -/
theorem Parts.choose {first second : Parse α} (stop : Option Kind) (noEqual : stop ≠ some .equal)
    (noStar : stop ≠ some .star) (isFirst : Parts fork isOperand bound first)
    (isSecond : Parts fork isOperand bound second) :
    Parts fork isOperand bound (do if (← peek) = stop then first else second) where
  shrinks tokens := by
    change (left ((if tokens.head?.map Token.kind = stop then first else second) tokens)).length ≤ _
    split
    · exact isFirst.shrinks tokens
    · exact isSecond.shrinks tokens
  reports tokens rest failed := by
    change (if tokens.head?.map Token.kind = stop then first else second) tokens = _ at failed
    split at failed
    · exact isFirst.reports tokens rest failed
    · exact isSecond.reports tokens rest failed
  parts taken short := by
    change Parting fork isOperand
      ((if (taken ++ fork.assigned).head?.map Token.kind = stop then first else second) _)
      ((if (taken ++ fork.multiplied).head?.map Token.kind = stop then first else second) _)
    cases taken with
    | nil =>
      have onEqual : fork.assigned.head?.map Token.kind ≠ stop := by
        rw [show fork.assigned.head?.map Token.kind = some .equal from congrArg some fork.isEqual]
        exact noEqual.symm
      have onStar : fork.multiplied.head?.map Token.kind ≠ stop := by
        rw [show fork.multiplied.head?.map Token.kind = some .star from congrArg some fork.isStar]
        exact noStar.symm
      rw [List.nil_append, List.nil_append, if_neg onEqual, if_neg onStar]
      exact isSecond.parts [] short
    | cons token behind =>
      rw [List.cons_append, List.cons_append, List.head?_cons, List.head?_cons]
      split
      · exact isFirst.parts (token :: behind) short
      · exact isSecond.parts (token :: behind) short

/-- An item that may be left out. -/
theorem Parts.optionalBefore (kind : Kind) (isOther : kind ≠ .equal ∧ kind ≠ .star)
    (parts : Parts fork false bound reader) :
    Parts fork false bound (Parse.optionalBefore kind reader) :=
  Parts.choose (some kind) (by simpa using isOther.1) (by simpa using isOther.2) (Parts.pure none)
    (parts.map some)

/-- Items with commas between them. -/
theorem Parts.separated (parts : Parts fork false bound reader) (fuel : Nat) :
    Parts fork false bound (Parse.separated reader fuel) := by
  induction fuel with
  | zero => exact Parts.fail
  | succ fuel ih =>
    refine parts.bind fun value => (Parts.accept [.comma] (by decide)).bind fun found => ?_
    cases found with
    | none => exact Parts.pure [value]
    | some _ => exact ih.bind fun others => Parts.pure (value :: others)

/-- Items up to a token that is neither of those at the fork, or up to the end. -/
theorem Parts.itemsUntil (stop : Option Kind) (noEqual : stop ≠ some .equal)
    (noStar : stop ≠ some .star) (parts : Parts fork false bound reader) (fuel : Nat) :
    Parts fork false bound (Parse.itemsUntil stop reader fuel) := by
  induction fuel with
  | zero => exact Parts.pure []
  | succ fuel ih =>
    refine Parts.choose stop noEqual noStar (Parts.pure []) (parts.bind fun value => ?_)
    exact ih.bind fun others => Parts.pure (value :: others)

end Lox.Source.Parse
