import Lox.Value.Basic
import Lox.Proofs.Number.PlainText

/-!
# Equal values

Equality holds of nil and itself, of a truth value or a text and the same one again, and of numbers with
the same place in their order. NaN has no place and functions are left out, so these do not even equal
themselves; all other values are divided into classes of equals.

The text of a value shows its class, among the values of its kind. Only zero is printed in two ways, with
and without a sign.
-/

namespace Lox

namespace Number

variable {x y : Number} {place : Int}

/-- Only NaN has no place. -/
theorem rank?_eq_none_iff : x.rank? = none ↔ x = .nan := by
  cases x <;> simp [Number.rank?]

/-- A number that has a place is made of a sign and a code, which give the place. -/
theorem exists_ofCode (isPlace : x.rank? = some place) :
    ∃ (negative : Bool) (code : Nat), x = ofCode negative code ∧
      place = if negative then -(code : Int) else code := by
  cases x with
  | nan => cases isPlace
  | infinite negative =>
    have isCode : ofCode negative finiteCodes = .infinite negative := dif_neg (lt_irrefl _)
    exact ⟨negative, finiteCodes, isCode.symm, (Option.some.inj isPlace).symm⟩
  | finite negative code =>
    have isCode : ofCode negative code = .finite negative code := dif_pos code.isLt
    exact ⟨negative, code, isCode.symm, (Option.some.inj isPlace).symm⟩

/-- Numbers with the same place are the same or zeros. -/
theorem eq_or_zero_of_rank? (isPlace : x.rank? = some place) (isPlace' : y.rank? = some place) :
    x = y ∨ ∃ negative negative', x = zero negative ∧ y = zero negative' := by
  obtain ⟨negative, code, rfl, isSigned⟩ := exists_ofCode isPlace
  obtain ⟨negative', code', rfl, isSigned'⟩ := exists_ofCode isPlace'
  have sameCode : code = code' := by grind
  subst sameCode
  by_cases isZero : code = 0
  · subst isZero
    exact .inr ⟨negative, negative', rfl, rfl⟩
  · have sameSign : negative = negative' := by grind
    exact .inl (by rw [sameSign])

/-- Numbers are equal where they have the same place. -/
theorem equals_iff : x.equals y = true ↔ ∃ place, x.rank? = some place ∧ y.rank? = some place := by
  unfold equals compare
  cases x.rank? <;> cases y.rank? <;> simp [eq_comm]

end Number

namespace Value

/-- Two values are both nil, are the same truth value or text, or are numbers with the same place. -/
inductive Equal : Value → Value → Prop where
  | nil : Equal nil nil
  | bool (value : Bool) : Equal (bool value) (bool value)
  | number {x y : Number} (place : Int) (isPlace : x.rank? = some place)
      (isPlace' : y.rank? = some place) : Equal (number x) (number y)
  | text (value : Text) : Equal (text value) (text value)

/-- A value that is no function and not NaN. -/
structure Comparable (value : Value) : Prop where
  isNumber : value ≠ number .nan
  notNative : value.kind ≠ .native
  notFunction : value.kind ≠ .function

/-- Zero with a sign. -/
def zero (negative : Bool) : Value :=
  .number (.zero negative)

variable {left middle right value : Value}

/-- Equality finds the values that are equal. -/
theorem equals_iff : left.equals right = true ↔ Equal left right := by
  constructor
  · fun_cases equals left right with
    | case1 => exact fun _ => .nil
    | case2 value other =>
      intro same
      rw [of_decide_eq_true same]
      exact .bool other
    | case3 x y =>
      intro same
      obtain ⟨place, isPlace, isPlace'⟩ := Number.equals_iff.mp same
      exact .number place isPlace isPlace'
    | case4 text other =>
      intro same
      rw [of_decide_eq_true same]
      exact .text other
    | case5 => exact nofun
  · rintro (_ | value | ⟨place, isPlace, isPlace'⟩ | value)
    · rfl
    · exact decide_eq_true rfl
    · exact Number.equals_iff.mpr ⟨place, isPlace, isPlace'⟩
    · exact decide_eq_true rfl

/-- Equality goes both ways. -/
theorem Equal.symm (same : Equal left right) : Equal right left := by
  cases same with
  | nil => exact .nil
  | bool value => exact .bool value
  | number place isPlace isPlace' => exact .number place isPlace' isPlace
  | text value => exact .text value

/-- Equality does not depend on the order of the values. -/
theorem equals_comm (left right : Value) : left.equals right = right.equals left := by
  rw [Bool.eq_iff_iff, equals_iff, equals_iff]
  exact ⟨Equal.symm, Equal.symm⟩

/-- Values that equal a third one are equal. -/
theorem Equal.trans (first : Equal left middle) (second : Equal middle right) : Equal left right := by
  cases first with
  | nil => exact second
  | bool value => exact second
  | number place isLeft isMiddle =>
    cases second with
    | number place' isMiddle' isRight =>
      rw [isMiddle, Option.some_inj] at isMiddle'
      exact .number place isLeft (isMiddle' ▸ isRight)
  | text value => exact second

/-- Just the values other than NaN and functions equal themselves. -/
theorem equal_self_iff : Equal value value ↔ value.Comparable := by
  constructor
  · intro same
    refine ⟨?_, ?_, ?_⟩
    · rintro rfl
      cases same with
      | number place isPlace => cases isPlace
    · cases same <;> exact nofun
    · cases same <;> exact nofun
  · rintro ⟨isNumber, notNative, notFunction⟩
    cases value with
    | nil => exact .nil
    | bool value => exact .bool value
    | number x =>
      have hasPlace : x.rank? ≠ none := fun noPlace =>
        isNumber (congrArg number (Number.rank?_eq_none_iff.mp noPlace))
      obtain ⟨place, isPlace⟩ := Option.ne_none_iff_exists'.mp hasPlace
      exact .number place isPlace isPlace
    | text value => exact .text value
    | native => exact absurd rfl notNative
    | function => exact absurd rfl notFunction

/-- Equal values are of one kind. -/
theorem Equal.kind_eq (same : Equal left right) : left.kind = right.kind := by
  cases same <;> rfl

/-- Equal values are alike as conditions. -/
theorem Equal.truthy_eq (same : Equal left right) : left.truthy = right.truthy := by
  cases same <;> rfl

/-- Equal values are the same unless they are zeros. -/
theorem Equal.eq_or_zero (same : Equal left right) :
    left = right ∨ ∃ negative negative', left = zero negative ∧ right = zero negative' := by
  cases same with
  | nil => exact .inl rfl
  | bool value => exact .inl rfl
  | number place isPlace isPlace' =>
    obtain rfl | ⟨negative, negative', rfl, rfl⟩ := Number.eq_or_zero_of_rank? isPlace isPlace'
    · exact .inl rfl
    · exact .inr ⟨negative, negative', rfl, rfl⟩
  | text value => exact .inl rfl

/-- Zeros are equal whatever their signs. -/
theorem equal_zero (negative negative' : Bool) : Equal (zero negative) (zero negative') := by
  have isPlace (negative : Bool) : (Number.zero negative).rank? = some 0 := by
    cases negative <;> rfl
  exact .number 0 (isPlace negative) (isPlace negative')

/-- The sign of zero is printed. -/
theorem shown_zero_inj {negative negative' : Bool} :
    (zero negative).shown = (zero negative').shown ↔ negative = negative' := by
  cases negative <;> cases negative' <;> decide +kernel

/-- Values of one kind that are printed alike are the same, if they are no functions and not NaN. -/
theorem eq_of_shown (isLeft : left.Comparable) (isRight : right.Comparable)
    (sameKind : left.kind = right.kind) (same : left.shown = right.shown) : left = right := by
  cases left with
  | nil =>
    cases right with
    | nil => rfl
    | _ => cases sameKind
  | bool value =>
    cases right with
    | bool other => cases value <;> cases other <;> first | rfl | cases same
    | _ => cases sameKind
  | number x =>
    cases right with
    | number y =>
      have isNumber : x ≠ .nan := fun isNaN => isLeft.isNumber (congrArg number isNaN)
      have isNumber' : y ≠ .nan := fun isNaN => isRight.isNumber (congrArg number isNaN)
      rw [Number.text_injective isNumber isNumber' same]
    | _ => cases sameKind
  | text value =>
    cases right with
    | text other => exact congrArg text same
    | _ => cases sameKind
  | native => exact absurd rfl isLeft.notNative
  | function => exact absurd rfl isLeft.notFunction

end Value

/-- Equality is symmetric and transitive, and a value equals itself unless it is NaN or a function. Equal
values are of one kind and alike as conditions. Two values of one kind, other than NaN and functions, are
equal just if they are printed alike or both are zero, and zero with its two signs is all that is equal
and printed differently. -/
theorem equality_divides_values :
    (∀ left right : Value, left.equals right = right.equals left) ∧
    (∀ left middle right : Value, left.equals middle = true → middle.equals right = true →
      left.equals right = true) ∧
    (∀ value : Value, value.equals value = true ↔ value.Comparable) ∧
    (∀ left right : Value, left.equals right = true →
      left.kind = right.kind ∧ left.truthy = right.truthy) ∧
    (∀ left right : Value, left.kind = right.kind → left.Comparable → right.Comparable →
      (left.equals right = true ↔ left.shown = right.shown ∨
        ∃ negative negative', left = .zero negative ∧ right = .zero negative')) ∧
    ∀ left right : Value, left.equals right = true ∧ left.shown ≠ right.shown ↔
      ∃ negative, left = .zero negative ∧ right = .zero !negative := by
  refine ⟨Value.equals_comm, ?_⟩
  simp only [Value.equals_iff]
  refine ⟨fun left middle right => Value.Equal.trans, fun value => Value.equal_self_iff,
    fun left right same => ⟨same.kind_eq, same.truthy_eq⟩,
    fun left right sameKind isLeft isRight => ⟨?_, ?_⟩, fun left right => ⟨?_, ?_⟩⟩
  · intro same
    exact same.eq_or_zero.imp_left fun isSame => congrArg Value.shown isSame
  · rintro (same | ⟨negative, negative', rfl, rfl⟩)
    · rw [Value.eq_of_shown isLeft isRight sameKind same]
      exact Value.equal_self_iff.mpr isRight
    · exact Value.equal_zero negative negative'
  · rintro ⟨same, different⟩
    obtain rfl | ⟨negative, negative', rfl, rfl⟩ := same.eq_or_zero
    · exact absurd rfl different
    · rw [Ne, Value.shown_zero_inj] at different
      exact ⟨negative, rfl, congrArg Value.zero (Bool.eq_not.mpr (Ne.symm different))⟩
  · rintro ⟨negative, rfl, rfl⟩
    refine ⟨Value.equal_zero _ _, ?_⟩
    rw [Ne, Value.shown_zero_inj]
    exact (Bool.eq_not_self negative).mp

end Lox
