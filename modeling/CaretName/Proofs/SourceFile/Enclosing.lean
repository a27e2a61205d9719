import CaretName.Proofs.Grammar.Code
import CaretName.Proofs.Grammar.Nesting
import CaretName.Proofs.SourceFile.Caret
import CaretName.Proofs.Tree.Outward

/-!
# Carets in code

A caret that is on no name goes to the innermost declaration around it, unless code lies between.
The walk outward is told by three kinds of places: those that declare something, those that hide
all declarations around them, and those that it passes. What is code is told by the name of the
construct, so the expressions whose names do not say so are passed.
-/
namespace CaretName

open Grammar

/-- The declarations that a caret inside them goes to. -/
def declaringConstructs : List Construct :=
  typeDeclarations ++
    [.methodDeclaration, .annotationTypeElementDeclaration, .constructorDeclaration,
      .compactConstructorDeclaration, .fieldDeclaration, .constantDeclaration,
      .localVariableDeclaration, .variableDeclarator, .formalParameter, .catchFormalParameter,
      .enumConstant]

/-- The constructs, other than code, that hide what is around them. -/
def coveringConstructs : List Construct :=
  [.packageDeclaration, .importDeclaration, .block, .constructorBody, .staticInitializer]

/-- The expressions whose names do not say that they are code. -/
def silentExpressions : List Construct :=
  [.identifier, .thisWord, .trueWord, .falseWord, .fieldAccess, .arrayAccess, .methodInvocation,
    .methodReference]

/-! ## What is code -/

/-- Whether a name ends as the names of statements, expressions and literals do. -/
def endsAsCode (name : String) : Bool :=
  ["_statement", "_expression", "_literal"].any (·.toList.isSuffixOf name.toList)

/-- The ending of a name is found among its letters. -/
theorem contains_of_letters {construct : Construct} {letters first second third : List Char}
    (name : construct.name = String.ofList letters) (one : "_statement" = String.ofList first)
    (two : "_expression" = String.ofList second) (three : "_literal" = String.ofList third)
    (same : codeConstructs.contains construct = (first.isSuffixOf letters ||
      (second.isSuffixOf letters || third.isSuffixOf letters))) :
    codeConstructs.contains construct = endsAsCode construct.name := by
  rw [endsAsCode, name, one, two, three, same]
  simp only [List.any_cons, List.any_nil, Bool.or_false, String.toList_ofList]

/-- A construct is code exactly if its name ends as that of a statement, an expression or a
literal. -/
theorem contains_codeConstructs (construct : Construct) :
    codeConstructs.contains construct = endsAsCode construct.name := by
  -- A literal is checked against its letters: to decide on strings would take each apart in bytes.
  cases construct <;> exact contains_of_letters rfl rfl rfl rfl rfl

/-- Blocks aside, the statements and expressions that are silent are those whose names do not end as
the name of code does. -/
theorem contains_silentExpressions : (statementConstructs ++ expressionConstructs).all
    (fun construct => silentExpressions.contains construct ==
      !(construct == .block || endsAsCode construct.name)) = true := by
  simp only [← contains_codeConstructs]
  decide

/-- Whether a place hides the declarations around it. -/
def Place.hides (place : Place) : Bool :=
  place.isAny coveringConstructs || place.isAnonymousBody || place.isAny codeConstructs

namespace Place

variable {place site around : Place}

/-- No place on the way from a site to a place around it declares anything. -/
def Undeclared (site around : Place) : Prop :=
  ∀ inner ∈ site.outward, around ∈ inner.ancestors → inner.isAny declaringConstructs = false

/-- Some place on the way from a site to a place around it hides what is around. -/
def Hidden (site around : Place) : Prop :=
  ∃ inner ∈ site.outward, around ∈ inner.ancestors ∧ inner.hides = true

/-- That nothing on the way declares anything can be checked place by place. -/
theorem undeclared_of_all (checked : site.outward.all (fun inner =>
    !inner.ancestors.any around.same || !inner.isAny declaringConstructs) = true) :
    site.Undeclared around := by
  intro inner listed outer
  have checks := between_of_all checked inner listed outer
  rwa [Bool.not_eq_true'] at checks

/-- What hides the declarations around it is one of a few constructs. -/
theorem isAny_of_hides (hides : place.hides = true) :
    place.isAny (.classBody :: coveringConstructs ++ codeConstructs) = true := by
  rcases Bool.or_eq_true_iff.mp hides with either | code
  · rcases Bool.or_eq_true_iff.mp either with covers | anonymous
    · exact isAny_mono covers (by decide)
    · exact isAny_of_is (Bool.and_eq_true_iff.mp anonymous).1 (by decide)
  · exact isAny_mono code (by decide)

/-- A statement or an expression hides the declarations around it unless its name is silent. -/
theorem hides_of_code (isCode : place.isAny (statementConstructs ++ expressionConstructs) = true) :
    place.hides = !place.isAny silentExpressions := by
  by_cases silent : place.isAny silentExpressions = true
  · have uncovered : place.isAny coveringConstructs = false := isAny_eq_false silent (by decide)
    have noBody : place.is .classBody = false := is_eq_false silent (by decide)
    have unspelled : place.isAny codeConstructs = false := isAny_eq_false silent (by decide)
    simp [hides, uncovered, isAnonymousBody, noBody, unspelled, silent]
  · have spelled : place.isAny (coveringConstructs ++ codeConstructs) = true := by
      obtain ⟨construct, listed, kind⟩ := isAny_iff.mp isCode
      refine isAny_iff.mpr ⟨construct, ?_, kind⟩
      have either : (statementConstructs ++ expressionConstructs).all (fun construct =>
          silentExpressions.contains construct ||
            (coveringConstructs ++ codeConstructs).contains construct) = true := by decide
      have told := List.all_eq_true.mp either construct listed
      rw [Bool.or_eq_true, List.contains_iff_mem, List.contains_iff_mem] at told
      exact told.resolve_left fun among => silent (isAny_iff.mpr ⟨construct, among, kind⟩)
    have covered : (place.isAny coveringConstructs || place.isAny codeConstructs) = true := by
      simpa [isAny, Node.isAny, List.any_append] using spelled
    rw [Bool.eq_false_iff.mpr silent, Bool.not_false, hides, Bool.or_right_comm, covered,
      Bool.true_or]

end Place

namespace SourceFile

variable {root : Node} {place code : Place} {inside : List Place} {byte : Nat}

/-! ## The walk outward -/

/-- The walk ends at a place that hides what is around it. -/
theorem enclosingElement?_of_hides (file : SourceFile) (hides : place.hides = true)
    (rest : List Place) : file.enclosingElement? (place :: rest) = some .other := by
  have kinds := Place.isAny_of_hides hides
  have noFile : place.is .program = false := Place.is_eq_false kinds (by decide)
  have noType : place.isTypeDeclaration = false := Place.isAny_eq_false kinds (by decide)
  have noMethod : place.isAny [.methodDeclaration, .annotationTypeElementDeclaration] = false :=
    Place.isAny_eq_false kinds (by decide)
  have noConstructor : place.isAny [.constructorDeclaration, .compactConstructorDeclaration] =
    false := Place.isAny_eq_false kinds (by decide)
  have noVariables : place.isAny [.fieldDeclaration, .constantDeclaration,
    .localVariableDeclaration] = false := Place.isAny_eq_false kinds (by decide)
  have noVariable : place.isAny [.variableDeclarator, .formalParameter, .catchFormalParameter,
    .enumConstant] = false := Place.isAny_eq_false kinds (by decide)
  rw [enclosingElement?, noFile, noType, noMethod, noConstructor, noVariables, noVariable]
  simp only [Bool.false_eq_true, ↓reduceIte]
  by_cases covers : place.isAny coveringConstructs = true
  · exact if_pos covers
  · rw [Place.hides, Bool.eq_false_iff.mpr covers, Bool.false_or] at hides
    exact (if_neg covers).trans (if_pos hides)

/-- The walk passes a place that neither declares nor hides anything. -/
theorem enclosingElement?_of_passes (file : SourceFile) (noFile : place.is .program = false)
    (undeclared : place.isAny declaringConstructs = false) (open_ : place.hides = false)
    (rest : List Place) : file.enclosingElement? (place :: rest) = file.enclosingElement? rest := by
  have noType : place.isTypeDeclaration = false :=
    Place.isAny_eq_false_mono undeclared (by decide)
  have noMethod : place.isAny [.methodDeclaration, .annotationTypeElementDeclaration] = false :=
    Place.isAny_eq_false_mono undeclared (by decide)
  have noConstructor : place.isAny [.constructorDeclaration, .compactConstructorDeclaration] =
    false := Place.isAny_eq_false_mono undeclared (by decide)
  have noVariables : place.isAny [.fieldDeclaration, .constantDeclaration,
    .localVariableDeclaration] = false := Place.isAny_eq_false_mono undeclared (by decide)
  have noVariable : place.isAny [.variableDeclarator, .formalParameter, .catchFormalParameter,
    .enumConstant] = false := Place.isAny_eq_false_mono undeclared (by decide)
  rw [Place.hides, Bool.or_assoc, Bool.or_eq_false_iff] at open_
  obtain ⟨uncovered, uncoded⟩ := open_
  unfold coveringConstructs at uncovered
  rw [enclosingElement?, noFile, noType, noMethod, noConstructor, noVariables, noVariable,
    uncovered, uncoded]
  simp only [Bool.false_eq_true, ↓reduceIte]

/-- Past places that declare nothing the walk ends if one of them hides what is around it, and
goes on otherwise. Induction on the places, from the inside. -/
theorem enclosingElement?_append (file : SourceFile) (outside : List Place)
    (passed : ∀ place ∈ inside,
      place.is .program = false ∧ place.isAny declaringConstructs = false) :
    file.enclosingElement? (inside ++ outside) =
      if inside.any Place.hides then some .other else file.enclosingElement? outside := by
  induction inside with
  | nil => rfl
  | cons place inside ih =>
    obtain ⟨⟨noFile, undeclared⟩, passed⟩ := List.forall_mem_cons.mp passed
    rw [List.cons_append, List.any_cons]
    by_cases hides : place.hides = true
    · rw [file.enclosingElement?_of_hides hides, hides, Bool.true_or, if_pos rfl]
    · rw [file.enclosingElement?_of_passes noFile undeclared (Bool.eq_false_iff.mpr hides),
        ih passed, Bool.eq_false_iff.mpr hides, Bool.false_or]

/-! ## Carets -/

/-- A caret is off all names if neither the token at it nor a name that ends there means
anything. -/
structure OffNames (file : SourceFile) (byte : Nat) : Prop where
  token : file.tokenElement? (file.tokenAt byte) = none
  ending : (file.nameEndingAt? byte).bind file.tokenElement? = none

instance (file : SourceFile) (byte : Nat) : Decidable (file.OffNames byte) :=
  decidable_of_iff
    (file.tokenElement? (file.tokenAt byte) = none ∧
      (file.nameEndingAt? byte).bind file.tokenElement? = none)
    ⟨fun ⟨token, ending⟩ => ⟨token, ending⟩, fun ⟨token, ending⟩ => ⟨token, ending⟩⟩

/-- A caret off all names goes to what is around it. -/
theorem OffNames.elementAt?_eq {file : SourceFile} (off : file.OffNames byte) :
    file.elementAt? byte = file.enclosingElement? (file.tokenAt byte).outward := by
  rw [elementAt?, off.token, off.ending]
  rfl

/-- The token at a byte belongs to the tree. -/
theorem held_tokenAt (root : Node) (byte : Nat) : root.Holds ((ofRoot root).tokenAt byte) :=
  Node.Holds.root.narrow _

/-- A caret that reaches a place past places that declare nothing shows nothing if one of them
hides the place, and shows what the walk from the place comes to otherwise. -/
theorem elementAt?_of_outward (wf : WellFormed root) (off : (ofRoot root).OffNames byte)
    (inChain : place ∈ ((ofRoot root).tokenAt byte).outward)
    (undeclared : ((ofRoot root).tokenAt byte).Undeclared place) :
    (((ofRoot root).tokenAt byte).Hidden place → (ofRoot root).elementAt? byte = some .other) ∧
    (¬ ((ofRoot root).tokenAt byte).Hidden place →
      (ofRoot root).elementAt? byte = (ofRoot root).enclosingElement? place.outward) := by
  have held := held_tokenAt root byte
  obtain ⟨inside, chain, between⟩ := Place.outward_eq_append inChain
  have passed : ∀ inner ∈ inside,
      inner.is .program = false ∧ inner.isAny declaringConstructs = false := by
    intro inner listed
    obtain ⟨inner_site, outer⟩ := between inner listed
    obtain ⟨around, above⟩ : ∃ around, inner.parent? = some around := by
      rw [Place.parent?_eq_head?]
      exact Option.isSome_iff_exists.mp (List.isSome_head?.mpr (List.ne_nil_of_mem outer))
    exact ⟨wf.is_program_eq_false (held.of_outward inner_site) above,
      undeclared inner inner_site outer⟩
  rw [off.elementAt?_eq, chain, (ofRoot root).enclosingElement?_append _ passed]
  constructor
  · rintro ⟨inner, listed, outer, hides⟩
    have among : inner ∈ inside := by
      refine (List.mem_append.mp (chain ▸ listed)).resolve_right fun further => ?_
      have less := Place.depth_lt_of_mem_ancestors (Place.mem_ancestors_of_outward outer further)
      exact absurd less (Nat.lt_irrefl _)
    exact if_pos (List.any_eq_true.mpr ⟨inner, among, hides⟩)
  · intro uncovered
    refine if_neg fun some_hides => uncovered ?_
    obtain ⟨inner, listed, hides⟩ := List.any_eq_true.mp some_hides
    obtain ⟨inner_site, outer⟩ := between inner listed
    exact ⟨inner, inner_site, outer, hides⟩

/-- A caret off all names in a statement or an expression, with no declaration between, shows
nothing if the name of the construct says that it is code, or if something inside it hides it.
Otherwise the expression is passed, and the caret shows what it would show around it. -/
theorem caret_in_code (wf : WellFormed root) (off : (ofRoot root).OffNames byte)
    (inChain : code ∈ ((ofRoot root).tokenAt byte).outward)
    (isCode : code.isAny (statementConstructs ++ expressionConstructs) = true)
    (undeclared : ((ofRoot root).tokenAt byte).Undeclared code) :
    (code.isAny silentExpressions = false ∨ ((ofRoot root).tokenAt byte).Hidden code →
      (ofRoot root).elementAt? byte = some .other) ∧
    (code.isAny silentExpressions = true → ¬ ((ofRoot root).tokenAt byte).Hidden code →
      ∃ around, code.parent? = some around ∧
        (ofRoot root).elementAt? byte = (ofRoot root).enclosingElement? around.outward) := by
  obtain ⟨hidden, reached⟩ := elementAt?_of_outward wf off inChain undeclared
  have hides := Place.hides_of_code isCode
  constructor
  · intro either
    by_cases covered : ((ofRoot root).tokenAt byte).Hidden code
    · exact hidden covered
    · rw [either.resolve_right covered, Bool.not_false] at hides
      rw [reached covered]
      exact (ofRoot root).enclosingElement?_of_hides hides code.ancestors
  · intro silent uncovered
    rw [silent, Bool.not_true] at hides
    obtain ⟨around, above⟩ : ∃ around, code.parent? = some around := by
      cases (held_tokenAt root byte).of_outward inChain with
      | root =>
        have noFile : (Place.root root).is .program = false := Place.is_eq_false isCode (by decide)
        rw [wf.root_is_program] at noFile
        contradiction
      | child held below => exact ⟨_, Place.parent?_of_mem_children below⟩
    have noFile : code.is .program = false := Place.is_eq_false isCode (by decide)
    have noDeclaration : code.isAny declaringConstructs = false :=
      Place.isAny_eq_false isCode (by decide)
    refine ⟨around, above, ?_⟩
    rw [reached uncovered, Place.outward, Place.ancestors_of_parent? above]
    exact (ofRoot root).enclosingElement?_of_passes noFile noDeclaration hides around.outward

/-- A field whose value is a sum. -/
def sumInField : String := "class A { int x = 1 + 2; }"

/-- A caret on the sign shows nothing. -/
theorem caret_on_sign : accepts sumInField = true ∧
    (ofRoot (parse sumInField)).OffNames 20 ∧
    ∃ code ∈ ((ofRoot (parse sumInField)).tokenAt 20).outward,
      code.is .binaryExpression = true ∧
      (ofRoot (parse sumInField)).elementAt? 20 = some .other := by
  have used : (accepts sumInField && (ofRoot (parse sumInField)).OffNames 20 &&
      ((ofRoot (parse sumInField)).tokenAt 20).outward.any fun code =>
        code.is .binaryExpression &&
          ((ofRoot (parse sumInField)).tokenAt 20).outward.all fun inner =>
            !inner.ancestors.any code.same || !inner.isAny declaringConstructs) = true := by
    decide +kernel
  simp only [Bool.and_eq_true, decide_eq_true_eq, List.any_eq_true] at used
  obtain ⟨⟨accepted, off⟩, code, inChain, isBinary, undeclared⟩ := used
  have spelled : code.isAny silentExpressions = false :=
    Place.isAny_eq_false (Place.isAny_of_is isBinary (List.mem_singleton_self _)) (by decide)
  have shown := caret_in_code (wellFormed_parse accepted) off inChain
    (Place.isAny_of_is isBinary (by decide)) (Place.undeclared_of_all undeclared)
  exact ⟨accepted, off, code, inChain, isBinary, shown.1 (.inl spelled)⟩

/-- A field whose value is another field of the same object. -/
def fieldInField : String := "class A { int y; int x = this.y; }"

/-- A caret on the dot of an expression shows the field around it. -/
theorem caret_passes_fieldAccess : accepts fieldInField = true ∧
    (ofRoot (parse fieldInField)).OffNames 29 ∧
    ∃ code ∈ ((ofRoot (parse fieldInField)).tokenAt 29).outward,
      code.isAny expressionConstructs = true ∧
      ((ofRoot (parse fieldInField)).tokenAt 29).Undeclared code ∧
      (ofRoot (parse fieldInField)).elementAt? 29 = some (.variable "int" "x") := by
  have used : (accepts fieldInField && (ofRoot (parse fieldInField)).OffNames 29 &&
      (ofRoot (parse fieldInField)).elementAt? 29 == some (.variable "int" "x") &&
      ((ofRoot (parse fieldInField)).tokenAt 29).outward.any fun code =>
        code.isAny expressionConstructs &&
          ((ofRoot (parse fieldInField)).tokenAt 29).outward.all fun inner =>
            !inner.ancestors.any code.same || !inner.isAny declaringConstructs) = true := by
    decide +kernel
  simp only [Bool.and_eq_true, decide_eq_true_eq, List.any_eq_true, beq_iff_eq] at used
  obtain ⟨⟨⟨accepted, off⟩, shown⟩, code, inChain, isCode, undeclared⟩ := used
  exact ⟨accepted, off, code, inChain, isCode, Place.undeclared_of_all undeclared, shown⟩

end SourceFile

end CaretName
