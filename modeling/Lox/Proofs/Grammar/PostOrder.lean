import Lox.Proofs.Grammar.Limits

/-!
# The order in which limits are looked at

The parts of a source tree in post-order: the parts that a part is made of stand before it, in the order
of the source. Only a call and the parameters of a function can exceed a limit by themselves, and the
search for an excess finds the first part of the order that does.

The tokens that an excess is reported at stand in this order in the source, too.
-/

namespace Lox.Source

/-- The first item that there is something for is the first one of a list, or among the others. -/
theorem findSome?_cons_eq_or {α β : Type} (find : α → Option β) (first : α) (rest : List α) :
    (first :: rest).findSome? find = (find first).or (rest.findSome? find) := by
  rw [List.findSome?_cons]
  cases find first <;> rfl

/-- A part of a source tree. -/
inductive Part where
  | expression (tree : Expr)
  | start (clause : LoopStart)
  | parameters (names : List Token)
  | statement (tree : Stmt)

/-- A part exceeds a limit by itself, which is reported at a token: a call with more than 255 arguments
at its closing parenthesis, and more than 255 parameters at the last one. -/
inductive Exceeds : Part → Token → Diagnostic → Prop
  | arguments {callee : Expr} {arguments : List Expr} {paren : Token} :
      255 < arguments.length →
      Exceeds (.expression (.call callee arguments paren)) paren (.tooManyArguments paren)
  | parameters {names : List Token} {last : Token} :
      255 < names.length → names.getLast? = some last →
      Exceeds (.parameters names) last (.tooManyParameters last)

namespace Part

/-- The parts that a part is made of, in the order of the source. -/
def children : Part → List Part
  | .expression (.literal _) | .expression (.variable _) | .parameters _ => []
  | .expression (.grouping inner) => [.expression inner]
  | .expression (.call callee arguments _) => .expression callee :: arguments.map .expression
  | .expression (.unary _ operand) => [.expression operand]
  | .expression (.binary left _ right) | .expression (.logical left _ right) =>
    [.expression left, .expression right]
  | .expression (.assign _ value) => [.expression value]
  | .start (.var _ initializer) => initializer.toList.map .expression
  | .start (.expression value) => [.expression value]
  | .statement (.expression value) | .statement (.print value) => [.expression value]
  | .statement (.var _ initializer) => initializer.toList.map .expression
  | .statement (.function _ names body) => .parameters names :: body.map .statement
  | .statement (.block body) => body.map .statement
  | .statement (.ifThen condition thenBranch) => [.expression condition, .statement thenBranch]
  | .statement (.ifElse condition thenBranch elseBranch) =>
    [.expression condition, .statement thenBranch, .statement elseBranch]
  | .statement (.whileLoop condition body) => [.expression condition, .statement body]
  | .statement (.forLoop clause condition increment body) =>
    clause.toList.map .start ++ condition.toList.map .expression ++
      increment.toList.map .expression ++ [.statement body]

/-- What a part is made of is smaller. -/
theorem sizeOf_lt_of_mem_children {part child : Part} (isChild : child ∈ part.children) :
    sizeOf child < sizeOf part := by
  have inExprs {item : Expr} {items : List Expr} (isItem : item ∈ items) :
      sizeOf item < sizeOf items := List.sizeOf_lt_of_mem isItem
  have inStmts {item : Stmt} {items : List Stmt} (isItem : item ∈ items) :
      sizeOf item < sizeOf items := List.sizeOf_lt_of_mem isItem
  match part with
  | .expression tree => cases tree <;> simp [children] at isChild <;> grind
  | .start clause => cases clause <;> simp [children] at isChild <;> grind
  | .parameters names => cases isChild
  | .statement tree => cases tree <;> simp [children] at isChild <;> grind

/-- A part and all parts inside it, each behind those that it is made of. -/
def postorder (part : Part) : List Part :=
  part.children.attach.flatMap (fun child => postorder child.1) ++ [part]
termination_by sizeOf part
decreasing_by exact sizeOf_lt_of_mem_children child.2

/-- The parts that a part is made of stand before it, each with the parts inside it. -/
theorem postorder_eq (part : Part) :
    part.postorder = part.children.flatMap postorder ++ [part] := by
  have inside : (part.children.attach.map Subtype.val).flatMap postorder =
      part.children.attach.flatMap fun child => postorder child.1 := List.flatMap_map ..
  rw [postorder, ← inside, List.attach_map_subtype_val]

/-- The excess of a part by itself. -/
def excess? : Part → Option Diagnostic
  | .expression (.call _ arguments paren) =>
    if maxArguments < arguments.length then some (.tooManyArguments paren) else none
  | .parameters names => parameterExcess? names
  | _ => none

/-- The first excess of a part or a part inside it. -/
def firstExcess? (part : Part) : Option Diagnostic :=
  part.postorder.findSome? excess?

/-- The first excess among some parts and all parts inside them. -/
theorem findSome?_postorder (parts : List Part) :
    (parts.flatMap postorder).findSome? excess? = parts.findSome? firstExcess? := by
  induction parts with
  | nil => rfl
  | cons first rest ih =>
    rw [List.flatMap_cons, List.findSome?_append, ih, findSome?_cons_eq_or]
    rfl

/-- The parts that a part is made of are looked at before it. -/
theorem firstExcess?_eq (part : Part) :
    part.firstExcess? = (part.children.findSome? firstExcess? <|> part.excess?) := by
  rw [firstExcess?, postorder_eq, List.findSome?_append, findSome?_postorder, findSome?_cons_eq_or]
  simp

/-- A part has an excess by itself if it exceeds a limit. -/
theorem excess?_eq_some_iff {part : Part} {diagnostic : Diagnostic} :
    part.excess? = some diagnostic ↔ ∃ token, Exceeds part token diagnostic := by
  constructor
  · intro isExcess
    unfold excess? at isExcess
    split at isExcess
    · next callee arguments paren =>
      obtain ⟨tooMany, rfl⟩ : maxArguments < arguments.length ∧ _ := by simpa using isExcess
      exact ⟨paren, .arguments tooMany⟩
    · next names =>
      unfold parameterExcess? at isExcess
      obtain ⟨tooMany, last, isLast, rfl⟩ : maxArguments < names.length ∧ _ := by simpa using isExcess
      exact ⟨last, .parameters tooMany isLast⟩
    · cases isExcess
  · rintro ⟨token, exceeds⟩
    cases exceeds with
    | arguments tooMany => exact if_pos tooMany
    | parameters tooMany isLast =>
      rw [excess?, parameterExcess?, isLast]
      exact if_pos tooMany

/-- The tokens that an excess of a part may be reported at. -/
def marks : Part → List Token
  | .expression (.call _ _ paren) => [paren]
  | .parameters names => names
  | _ => []

/-- The marks of a part and all parts inside it. -/
def allMarks (part : Part) : List Token :=
  part.postorder.flatMap marks

/-- The marks of a part stand behind those of the parts that it is made of. -/
theorem allMarks_eq (part : Part) :
    part.allMarks = part.children.flatMap allMarks ++ part.marks := by
  rw [allMarks, postorder_eq, List.flatMap_append, List.flatMap_assoc, List.flatMap_singleton]
  rfl

end Part

section Search

attribute [local simp] Part.children Part.excess? findSome?_cons_eq_or Option.or_assoc

mutual

/-- The search in an expression finds the first excess of its parts in post-order. -/
theorem Expr.excess?_eq : (tree : Expr) → tree.excess? = (Part.expression tree).firstExcess?
  | .literal _ | .variable _ => by
    rw [Part.firstExcess?_eq]
    simp [Expr.excess?]
  | .grouping inner => by
    rw [Part.firstExcess?_eq]
    simp [Expr.excess?, Expr.excess?_eq inner]
  | .call callee arguments paren => by
    rw [Part.firstExcess?_eq]
    simp [Expr.excess?, Expr.excess?_eq callee, Expr.excessOfList?_eq arguments]
  | .unary _ value | .assign _ value => by
    rw [Part.firstExcess?_eq]
    simp [Expr.excess?, Expr.excess?_eq value]
  | .binary left _ right | .logical left _ right => by
    rw [Part.firstExcess?_eq]
    simp [Expr.excess?, Expr.excess?_eq left, Expr.excess?_eq right]

/-- The search in some expressions finds the first excess of their parts in post-order. -/
theorem Expr.excessOfList?_eq : (trees : List Expr) →
    Expr.excessOfList? trees = (trees.map Part.expression).findSome? Part.firstExcess?
  | [] => rfl
  | first :: rest => by
    simp [Expr.excessOfList?, Expr.excess?_eq first, Expr.excessOfList?_eq rest]

end

/-- The search in an optional expression finds the first excess of its parts in post-order. -/
theorem Expr.excessOfOption?_eq (value : Option Expr) :
    Expr.excessOfOption? value = (value.toList.map Part.expression).findSome? Part.firstExcess? := by
  cases value with
  | none => rfl
  | some tree => simp [Expr.excessOfOption?, Expr.excess?_eq tree]

/-- The search in an optional first clause finds the first excess of its parts in post-order. -/
theorem LoopStart.excess?_eq (start : Option LoopStart) :
    start.bind LoopStart.excess? = (start.toList.map Part.start).findSome? Part.firstExcess? := by
  match start with
  | none => rfl
  | some (.var name initializer) =>
    simp [LoopStart.excess?, Part.firstExcess?_eq (.start _), Expr.excessOfOption?_eq]
  | some (.expression value) =>
    simp [LoopStart.excess?, Part.firstExcess?_eq (.start _), Expr.excess?_eq]

mutual

/-- The search in a statement finds the first excess of its parts in post-order. -/
theorem Stmt.excess?_eq : (tree : Stmt) → tree.excess? = (Part.statement tree).firstExcess?
  | .expression value | .print value => by
    rw [Part.firstExcess?_eq]
    simp [Stmt.excess?, Expr.excess?_eq value]
  | .var _ initializer => by
    rw [Part.firstExcess?_eq]
    simp [Stmt.excess?, Expr.excessOfOption?_eq initializer]
  | .function _ names body => by
    rw [Part.firstExcess?_eq]
    simp [Stmt.excess?, Part.firstExcess?_eq (.parameters names), Stmt.excessOfList?_eq body]
  | .block body => by
    rw [Part.firstExcess?_eq]
    simp [Stmt.excess?, Stmt.excessOfList?_eq body]
  | .ifThen condition body | .whileLoop condition body => by
    rw [Part.firstExcess?_eq]
    simp [Stmt.excess?, Expr.excess?_eq condition, Stmt.excess?_eq body]
  | .ifElse condition thenBranch elseBranch => by
    rw [Part.firstExcess?_eq]
    simp [Stmt.excess?, Expr.excess?_eq condition, Stmt.excess?_eq thenBranch,
      Stmt.excess?_eq elseBranch]
  | .forLoop clause condition increment body => by
    rw [Part.firstExcess?_eq]
    simp [Stmt.excess?, LoopStart.excess?_eq clause, Expr.excessOfOption?_eq,
      Stmt.excess?_eq body, List.findSome?_append]

/-- The search in some statements finds the first excess of their parts in post-order. -/
theorem Stmt.excessOfList?_eq : (trees : List Stmt) →
    Stmt.excessOfList? trees = (trees.map Part.statement).findSome? Part.firstExcess?
  | [] => rfl
  | first :: rest => by
    simp [Stmt.excessOfList?, Stmt.excess?_eq first, Stmt.excessOfList?_eq rest]

end

end Search

/-- The parts of a program in post-order. -/
def Stmt.parts (trees : List Stmt) : List Part :=
  (trees.map Part.statement).flatMap Part.postorder

/-- The search in a program finds the excess of the first part in post-order that exceeds a limit. -/
theorem Stmt.excessOfList?_eq_some_iff {trees : List Stmt} {diagnostic : Diagnostic} :
    Stmt.excessOfList? trees = some diagnostic ↔
      ∃ before offender after, Stmt.parts trees = before ++ offender :: after ∧
        (∃ token, Exceeds offender token diagnostic) ∧
        ∀ part ∈ before, ¬∃ token found, Exceeds part token found := by
  have keeps (part : Part) : part.excess? = none ↔ ¬∃ token found, Exceeds part token found := by
    rw [Option.eq_none_iff_forall_ne_some, exists_comm, not_exists]
    exact forall_congr' fun found => not_congr Part.excess?_eq_some_iff
  rw [Stmt.excessOfList?_eq, ← Part.findSome?_postorder, List.findSome?_eq_some_iff]
  simp only [Part.excess?_eq_some_iff, keeps]
  rfl

/-- The search in a program finds something if a part of it exceeds a limit. -/
theorem Stmt.isSome_excessOfList? {trees : List Stmt} :
    (Stmt.excessOfList? trees).isSome ↔
      ∃ part ∈ Stmt.parts trees, ∃ token diagnostic, Exceeds part token diagnostic := by
  have exceeds (part : Part) :
      part.excess?.isSome ↔ ∃ token diagnostic, Exceeds part token diagnostic := by
    rw [Option.isSome_iff_exists, exists_comm]
    exact exists_congr fun diagnostic => Part.excess?_eq_some_iff
  rw [Stmt.excessOfList?_eq, ← Part.findSome?_postorder, List.isSome_findSome?, List.any_eq_true]
  exact exists_congr fun part => and_congr_right fun _ => exceeds part

/-- An excess is reported at a token that it may be reported at. -/
theorem Exceeds.mem_marks {part : Part} {token : Token} {diagnostic : Diagnostic}
    (exceeds : Exceeds part token diagnostic) : token ∈ part.marks := by
  cases exceeds with
  | arguments => exact List.mem_singleton_self token
  | parameters _ isLast => exact List.mem_of_getLast? isLast

/-- An alternative for an open conditional is searched behind the statement that it is attached to. -/
theorem Stmt.excess?_attach {tree alternative : Stmt} (isOpen : tree.isOpen = true) :
    (tree.attach alternative).excess? = (tree.excess? <|> alternative.excess?) := by
  fun_induction Stmt.attach tree alternative with
  | case1 condition thenBranch alternative thenOpen ih =>
    simp [Stmt.excess?, ih thenOpen, Option.or_assoc]
  | case2 condition thenBranch alternative thenClosed => simp [Stmt.excess?, Option.or_assoc]
  | case3 condition thenBranch elseBranch alternative ih =>
    simp [Stmt.excess?, ih isOpen, Option.or_assoc]
  | case4 condition body alternative ih => simp [Stmt.excess?, ih isOpen, Option.or_assoc]
  | case5 start condition increment body alternative ih =>
    simp [Stmt.excess?, ih isOpen, Option.or_assoc]
  | case6 other => simp_all [Stmt.isOpen]

mutual

/-- The search finds the same in a settled statement. -/
theorem Stmt.excess?_settled : (tree : Stmt) → tree.settled.excess? = tree.excess?
  | .expression _ | .print _ | .var _ _ => rfl
  | .function _ _ body | .block body => by
    simp [Stmt.settled, Stmt.excess?, Stmt.excessOfList?_settledAll body]
  | .ifThen _ body | .whileLoop _ body | .forLoop _ _ _ body => by
    simp [Stmt.settled, Stmt.excess?, Stmt.excess?_settled body]
  | .ifElse condition thenBranch elseBranch => by
    have isOpen : (Stmt.ifThen condition thenBranch.settled).isOpen = true := rfl
    simp [Stmt.settled, Stmt.excess?_attach isOpen, Stmt.excess?, Stmt.excess?_settled thenBranch,
      Stmt.excess?_settled elseBranch, Option.or_assoc]

/-- The search finds the same in settled statements. -/
theorem Stmt.excessOfList?_settledAll :
    (trees : List Stmt) → Stmt.excessOfList? (Stmt.settledAll trees) = Stmt.excessOfList? trees
  | [] => rfl
  | first :: rest => by
    simp [Stmt.settledAll, Stmt.excessOfList?, Stmt.excess?_settled first,
      Stmt.excessOfList?_settledAll rest]

end

end Lox.Source

namespace Lox.Grammar

open Source

attribute [local simp] Part.children Part.marks

/-- The marks of an operation are those of its operands. -/
theorem ChainRule.allMarks_join {rank operand : Rank} {operators : List Kind}
    {join : Expr → Token → Expr → Expr} (rule : ChainRule rank operators operand join)
    (left : Expr) (operator : Token) (right : Expr) :
    (Part.expression (join left operator right)).allMarks =
      (Part.expression left).allMarks ++ (Part.expression right).allMarks := by
  rw [Part.allMarks_eq]
  cases rule <;> simp

/-- The marks of a chain of operators stand in this order in its tokens. -/
theorem ChainRule.allMarks_sublist {rank operand : Rank} {operators : List Kind}
    {join : Expr → Token → Expr → Expr} (rule : ChainRule rank operators operand join)
    {others : List (Link Expr)}
    (operands : ∀ link ∈ others, (Part.expression link.tree).allMarks.Sublist link.tokens)
    {tokens : List Token} {first : Expr} (isFirst : (Part.expression first).allMarks.Sublist tokens) :
    (Part.expression
        (others.foldl (fun left link => join left link.joint link.tree) first)).allMarks.Sublist
      (tokens ++ linked others) := by
  induction others generalizing first tokens with
  | nil => simpa [linked] using isFirst
  | cons link others ih =>
    rw [List.forall_mem_cons] at operands
    have joined : (Part.expression (join first link.joint link.tree)).allMarks.Sublist
        (tokens ++ link.joint :: link.tokens) := by
      rw [rule.allMarks_join]
      exact isFirst.append (operands.1.cons _)
    simpa [linked] using ih operands.2 joined

/-- The marks of arguments stand in this order in their tokens. -/
theorem allMarks_sublist_linked {others : List (Link Expr)}
    (arguments : ∀ link ∈ others, (Part.expression link.tree).allMarks.Sublist link.tokens) :
    ((others.map fun link => Part.expression link.tree).flatMap Part.allMarks).Sublist (linked others) := by
  induction others with
  | nil => exact .slnil
  | cons link others ih =>
    rw [List.forall_mem_cons] at arguments
    exact (arguments.1.append (ih arguments.2)).cons _

/-- The marks of an expression stand in this order in its tokens. -/
theorem Expression.allMarks_sublist {rank : Rank} {tokens : List Token} {tree : Expr}
    (expression : Expression rank tokens tree) :
    (Part.expression tree).allMarks.Sublist tokens := by
  induction expression with
  | operation _ ih => exact ih
  | unprefixed _ ih => exact ih
  | uncalled _ ih => exact ih
  | chain rule _ _ _ ih others => exact rule.allMarks_sublist others ih
  | assign _ _ _ ih =>
    rw [Part.allMarks_eq]
    simpa using (ih.cons _).cons _
  | prefixed _ _ ih =>
    rw [Part.allMarks_eq]
    simpa using ih.cons _
  | callEmpty _ _ _ ih =>
    rw [Part.allMarks_eq]
    simpa using ih.append (List.sublist_cons_self _ _)
  | @callWith _ _ _ _ _ _ closing _ _ _ _ _ _ ih first others =>
    have arguments := (first.append (allMarks_sublist_linked others)).append (.refl [closing])
    rw [Part.allMarks_eq]
    simpa [Function.comp_def] using ih.append (arguments.cons _)
  | literal | named =>
    rw [Part.allMarks_eq]
    exact List.nil_sublist _
  | grouping _ _ _ ih =>
    rw [Part.allMarks_eq]
    simpa using (ih.trans (List.sublist_append_left _ _)).cons _

/-- The marks of an optional expression stand in this order in its tokens. -/
theorem OptionalExpression.allMarks_sublist {tokens : List Token} {value : Option Expr}
    (expression : OptionalExpression tokens value) :
    ((value.toList.map Part.expression).flatMap Part.allMarks).Sublist tokens := by
  cases expression with
  | absent => exact .slnil
  | present isValue => simpa using isValue.allMarks_sublist

/-- The names of parameters stand in this order in their tokens. -/
theorem Parameters.sublist {tokens parameters : List Token}
    (areParameters : Parameters tokens parameters) : parameters.Sublist tokens := by
  cases areParameters with
  | absent => exact .slnil
  | @present first others isName _ names =>
    refine .cons_cons first ?_
    induction others with
    | nil => exact .slnil
    | cons link others ih =>
      obtain ⟨⟨_, isTree⟩, rest⟩ := List.forall_mem_cons.mp names
      have isLink : [link.tree].Sublist (link.joint :: link.tokens) := isTree ▸ .cons _ (.refl _)
      exact isLink.append (ih (List.forall_mem_of_forall_mem_cons ‹_›) rest)

/-- The marks of an initializer stand in this order in the declaration. -/
theorem Variable.allMarks_sublist {tokens : List Token} {name : Token} {initializer : Option Expr}
    (declaration : Variable tokens name initializer) :
    ((initializer.toList.map Part.expression).flatMap Part.allMarks).Sublist tokens := by
  cases declaration with
  | plain => simp
  | initialized _ _ _ isValue _ =>
    simpa using (((isValue.allMarks_sublist.trans (List.sublist_append_left _ _)).cons _).cons _).cons _

/-- The marks of a first clause stand in this order in its tokens. -/
theorem FirstClause.allMarks_sublist {tokens : List Token} {start : Option LoopStart}
    (clause : FirstClause tokens start) :
    ((start.toList.map Part.start).flatMap Part.allMarks).Sublist tokens := by
  cases clause with
  | absent => simp
  | var declaration =>
    simpa [Part.allMarks_eq (.start _)] using declaration.allMarks_sublist
  | expression isValue _ =>
    simpa [Part.allMarks_eq (.start _)] using
      isValue.allMarks_sublist.trans (List.sublist_append_left _ _)

/-- The marks of statements one after another stand in this order in their tokens. -/
theorem allMarks_sublist_spelled {phrases : List (Phrase Stmt)}
    (statements : ∀ phrase ∈ phrases, (Part.statement phrase.tree).allMarks.Sublist phrase.tokens) :
    ((phrases.map fun phrase => Part.statement phrase.tree).flatMap Part.allMarks).Sublist
      (spelled phrases) := by
  induction phrases with
  | nil => exact .slnil
  | cons phrase phrases ih =>
    rw [List.forall_mem_cons] at statements
    exact statements.1.append (ih statements.2)

/-- The marks of a statement stand in this order in its tokens. -/
theorem Statement.allMarks_sublist {position : Position} {tokens : List Token} {tree : Stmt}
    (statement : Statement position tokens tree) :
    (Part.statement tree).allMarks.Sublist tokens := by
  induction statement with
  | @function _ _ _ _ _ last _ _ _ _ _ _ parameters _ _ _ _ ih =>
    have body := (allMarks_sublist_spelled ih).trans (List.sublist_append_left _ [last])
    rw [Part.allMarks_eq]
    simpa [Part.allMarks_eq (.parameters _), Function.comp_def] using
      (((parameters.sublist.append ((body.cons _).cons _)).cons _).cons _).cons _
  | var declaration =>
    rw [Part.allMarks_eq]
    simpa using declaration.allMarks_sublist
  | plain _ ih => exact ih
  | expression isValue _ =>
    rw [Part.allMarks_eq]
    simpa using isValue.allMarks_sublist.trans (List.sublist_append_left _ _)
  | forLoop _ _ start condition _ increment _ _ ih =>
    rw [Part.allMarks_eq]
    simpa using
      ((start.allMarks_sublist.append (condition.allMarks_sublist.append
        ((increment.allMarks_sublist.append (ih.cons _)).cons _))).cons _).cons _
  | ifThen _ _ condition _ _ ih =>
    rw [Part.allMarks_eq]
    simpa using ((condition.allMarks_sublist.append (ih.cons _)).cons _).cons _
  | ifElse _ _ condition _ _ _ _ thenIh elseIh =>
    rw [Part.allMarks_eq]
    simpa using
      ((condition.allMarks_sublist.append ((thenIh.append (elseIh.cons _)).cons _)).cons _).cons _
  | print _ isValue _ =>
    rw [Part.allMarks_eq]
    simpa using (isValue.allMarks_sublist.trans (List.sublist_append_left _ _)).cons _
  | whileLoop _ _ condition _ _ ih =>
    rw [Part.allMarks_eq]
    simpa using ((condition.allMarks_sublist.append (ih.cons _)).cons _).cons _
  | @block _ closing _ _ _ _ ih =>
    have body := (allMarks_sublist_spelled ih).trans (List.sublist_append_left _ [closing])
    rw [Part.allMarks_eq]
    simpa [Function.comp_def] using body.cons _

/-- The marks of a program stand in this order in its tokens. -/
theorem IsProgram.marks_sublist {tokens : List Token} {program : List Stmt}
    (isProgram : IsProgram tokens program) :
    ((Stmt.parts program).flatMap Part.marks).Sublist tokens := by
  obtain ⟨items, declarations, rfl, rfl⟩ := isProgram
  have statements := allMarks_sublist_spelled fun item isItem =>
    (declarations item isItem).allMarks_sublist
  rw [Stmt.parts, List.flatMap_assoc, List.map_map]
  exact statements

end Lox.Grammar
