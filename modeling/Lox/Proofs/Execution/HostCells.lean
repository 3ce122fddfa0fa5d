import Lox.Execution.Operation
import Mathlib.Data.List.Forall2

/-!
# What host functions know

A host function names cells by their places and knows of them no more than how they look. So a relation
between cells carries over to those that two host functions name, and cells that look alike pairwise are
known alike.
-/

namespace Lox

variable {relation : Cell → Cell → Prop} {known known' : List Cell}

/-- Cells that are related pairwise are there at the same places. -/
theorem getElem?_rel (areRelated : List.Forall₂ relation known known') (place : Nat) :
    Option.Rel relation known[place]? known'[place]? := by
  induction areRelated generalizing place with
  | nil => exact .none
  | cons isRelated _ ih =>
    cases place with
    | zero => exact .some isRelated
    | succ place => exact ih place

/-- The cells at some places are related pairwise, if they are there. -/
theorem cellsAt?_rel (areRelated : List.Forall₂ relation known known') (places : List Nat) :
    Option.Rel (List.Forall₂ relation) (cellsAt? known places) (cellsAt? known' places) := by
  unfold cellsAt?
  induction places with
  | nil => exact .some .nil
  | cons place places ih =>
    have first := getElem?_rel areRelated place
    rw [List.mapM_cons, List.mapM_cons]
    generalize known[place]? = cell at first ⊢
    generalize known'[place]? = cell' at first ⊢
    cases first with
    | none => exact .none
    | some isRelated =>
      generalize places.mapM (known[·]?) = cells at ih ⊢
      generalize places.mapM (known'[·]?) = cells' at ih ⊢
      cases ih with
      | none => exact .none
      | some areRelated => exact .some (.cons isRelated areRelated)

/-- The cells at some places are some of those that are known. -/
theorem mem_of_cellsAt? {places : List Nat} {cells : List Cell}
    (areThere : cellsAt? known places = some cells) : ∀ cell ∈ cells, cell ∈ known := by
  unfold cellsAt? at areThere
  induction places generalizing cells with
  | nil =>
    obtain rfl := Option.some.inj areThere
    exact List.forall_mem_nil _
  | cons place places ih =>
    rw [List.mapM_cons] at areThere
    obtain ⟨first, isFirst, rest⟩ := Option.bind_eq_some_iff.mp areThere
    obtain ⟨others, areOthers, isWhole⟩ := Option.bind_eq_some_iff.mp rest
    obtain rfl := Option.some.inj isWhole
    exact List.forall_mem_cons.mpr ⟨List.mem_of_getElem? isFirst, ih areOthers⟩

/-- What holds of cells at two places holds of those that are related to them. -/
theorem holdsAt_eq (areRelated : List.Forall₂ relation known known') {holds : Cell → Cell → Bool}
    (agrees : ∀ {cell cell' other other'}, relation cell cell' → relation other other' →
      holds cell other = holds cell' other') :
    holdsAt known holds = holdsAt known' holds := by
  funext place other
  have first := getElem?_rel areRelated place
  have second := getElem?_rel areRelated other
  unfold holdsAt
  generalize known[place]? = cell at first ⊢
  generalize known'[place]? = cell' at first ⊢
  generalize known[other]? = found at second ⊢
  generalize known'[other]? = found' at second ⊢
  cases first with
  | none => rfl
  | some isRelated =>
    cases second with
    | none => rfl
    | some isRelated' => exact agrees isRelated isRelated'

/-- Cells that are related pairwise are known alike, if related cells look alike, are one only where the
others are, and have equal values only where the others have. -/
theorem HostView.of_eq (areRelated : List.Forall₂ relation known known')
    (looks : ∀ {cell cell'}, relation cell cell' → cell.value.appearance = cell'.value.appearance)
    (same : ∀ {cell cell' other other'}, relation cell cell' → relation other other' →
      (cell.id = other.id ↔ cell'.id = other'.id))
    (equal : ∀ {cell cell' other other'}, relation cell cell' → relation other other' →
      cell.value.equals other.value = cell'.value.equals other'.value) :
    HostView.of known = HostView.of known' := by
  have cells : known.map (fun cell => cell.value.appearance) =
      known'.map fun cell => cell.value.appearance := by
    induction areRelated with
    | nil => rfl
    | cons isRelated _ ih => rw [List.map_cons, List.map_cons, looks isRelated, ih]
  have identity : holdsAt known (fun cell other => cell.id = other.id) =
      holdsAt known' fun cell other => cell.id = other.id :=
    holdsAt_eq areRelated fun isCell isOther => decide_eq_decide.mpr (same isCell isOther)
  unfold HostView.of
  rw [cells, identity, holdsAt_eq areRelated equal]

/-- What is known grows by cells that are related as well. -/
theorem forall₂_concat (areRelated : List.Forall₂ relation known known') {cell cell' : Cell}
    (isRelated : relation cell cell') : List.Forall₂ relation (known ++ [cell]) (known' ++ [cell']) :=
  List.rel_append areRelated (.cons isRelated .nil)

end Lox
