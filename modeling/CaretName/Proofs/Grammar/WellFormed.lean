import CaretName.Grammar.Parse
import CaretName.Proofs.Grammar.Layout
import CaretName.SourceFile.TypeScope

/-!
# Trees without errors

A well-formed tree is one that the grammar of compilation units derives, and every source that
is read without a repair has such a tree. What the lookups of names rely on is checked here
against the rules of the grammar, once for all trees: which constructs are tokens, where a name
is sure to be, and what stands in the roles that lookups go through.
-/
namespace CaretName

namespace Grammar

/-- What a file consists of. -/
def file : Grammar.Rule := .seq [.many (.part .topLevel), .finish]

/-- The rules that the rule of a file is made of. -/
theorem mem_within_file {inner : Grammar.Rule} : inner ∈ file.within ↔
    inner = file ∨ inner = .many (.part .topLevel) ∨ inner = .part .topLevel ∨ inner = .finish := by
  simp [file, Rule.within, Rule.withinAll]

/-- A tree without errors: the grammar derives it from tokens that a source can have. -/
def WellFormed (root : Node) : Prop :=
  ∃ tokens nodes rest length, (∀ token ∈ tokens, token.Sound) ∧ Token.Lie 0 tokens length ∧
    Rule.Reads rules file tokens nodes rest ∧ root = rootOf nodes length

/-- Whether a source is read without a repair. -/
def accepts (source : String) : Bool :=
  match readFile (Lexer.tokenize source) with
  | .done .. => true
  | .stuck _ => false

/-- What is read without a repair makes up the tree of the source. -/
theorem parse_of_done {source : String} {nodes : List Node} {rest : List Token} {reach : Nat}
    (done : readFile (Lexer.tokenize source) = .done nodes rest reach) :
    parse source = rootOf nodes source.utf8ByteSize := by
  simp [parse, nodesOf, done]

/-- A source that is read without a repair is read to an end. -/
theorem exists_done {source : String} (accepted : accepts source = true) :
    ∃ nodes rest reach, readFile (Lexer.tokenize source) = .done nodes rest reach := by
  unfold accepts at accepted
  split at accepted
  · next done => exact ⟨_, _, _, done⟩
  · contradiction

/-- The tree of a source that is read without a repair is derived from its tokens. -/
theorem exists_reads {source : String} (accepted : accepts source = true) :
    ∃ nodes rest, Rule.Reads rules file (Lexer.tokenize source) nodes rest ∧
      parse source = rootOf nodes source.utf8ByteSize := by
  obtain ⟨nodes, rest, reach, done⟩ := exists_done accepted
  exact ⟨nodes, rest, Rule.read_sound done, parse_of_done done⟩

/-- A file is what is declared in it, and its end with the comments in front of it. -/
theorem exists_of_reads_file {tokens rest : List Token} {nodes : List Node}
    (reads : Rule.Reads rules file tokens nodes rest) : ∃ declared last more,
      Rule.Reads rules (.many (.part .topLevel)) tokens declared (last :: more) ∧
        last.sort = .finish ∧ nodes = declared ++ last.before ∧ rest = [last] := by
  cases reads with
  | seqCons first later =>
    cases later with
    | seqCons finish nothing =>
      cases nothing
      cases finish with
      | finish sort => exact ⟨_, _, _, first, sort, by rw [List.append_nil], rfl⟩

/-- The tree of a source that is read without a repair is well-formed. -/
theorem wellFormed_parse {source : String} (accepted : accepts source = true) :
    WellFormed (parse source) := by
  obtain ⟨nodes, rest, reads, same⟩ := exists_reads accepted
  exact ⟨Lexer.tokenize source, nodes, rest, source.utf8ByteSize, Lexer.tokenize_sound,
    Lexer.tokenize_lie source, reads, same⟩

/-- What is found among the places listed for a source belongs to its tree. -/
theorem exists_held_of_search {source : String} {wanted : Place → Bool}
    (found : (accepts source && ((parse source).places []).any wanted) = true) :
    accepts source = true ∧ ∃ place, (parse source).Holds place ∧ wanted place = true := by
  obtain ⟨accepted, found⟩ := Bool.and_eq_true_iff.mp found
  exact ⟨accepted, Node.Holds.exists_held_of_any found⟩

/-! ## What the rules guarantee -/

/-- Constructs that a type grows from or into, arrays aside. -/
def simpleTypes : List Construct :=
  [.voidType, .booleanType, .integralType, .floatingPointType, .typeIdentifier,
    .scopedTypeIdentifier, .genericType]

/-- Constructs that annotate. -/
def annotationConstructs : List Construct := [.annotationWithArguments, .annotationMarker]

/-- The constructs that a named rule may read, for the rules that read only a few. -/
def known : Part → List Look
  | .plainType => .construct .arrayType :: simpleTypes.map .construct
  | .type => .construct .annotatedType :: .construct .arrayType :: simpleTypes.map .construct
  | .annotationUse => annotationConstructs.map .construct
  | .typeArguments => [.construct .typeArguments]
  | .classBody => [.construct .classBody]
  | _ => [.any]

/-- Constructs that are nothing but a name. -/
def nameConstructs : List Construct := [.identifier, .typeIdentifier]

/-- Constructs that are nothing but a keyword. -/
def keywordConstructs : List Construct := [.thisWord, .superWord, .underscorePattern]

/-- Constructs that are sure to have a name that is an identifier. -/
def namedConstructs : List Construct :=
  typeDeclarations ++ [.methodDeclaration, .annotationTypeElementDeclaration,
    .constructorDeclaration, .compactConstructorDeclaration]

/-- Constructs that are sure to have children. -/
def branchConstructs : List Construct := .typePattern :: namedConstructs

/-- Constructs that hold the members of a declared type. -/
def bodyConstructs : List Construct :=
  [.classBody, .interfaceBody, .enumBody, .annotationTypeBody]

/-- The constructs that may stand, besides marks, in those that dotted names are made of and in
an import. -/
def contents : Construct → Option (List Construct)
  | .scopedTypeIdentifier => some (annotationConstructs ++ simpleTypes)
  | .genericType => some (.typeArguments :: simpleTypes)
  | .scopedIdentifier => some [.identifier, .scopedIdentifier]
  | .importDeclaration => some [.identifier, .scopedIdentifier, .asterisk]
  | .asterisk => some []
  | _ => none

/-- Whether a node in a role looks as lookups expect, inside the given construct. -/
def regularSight (around : Construct) (sight : Sight) : Bool :=
  (sight.role != some .declarator || sight.look == .construct .variableDeclarator) &&
  (sight.role != some .resources || sight.look == .construct .resourceSpecification) &&
  (around != .resourceSpecification || sight.look == .mark || sight.look == .construct .resource) &&
  (!namedConstructs.contains around || sight.role != some .name ||
    sight.look == .construct .identifier) &&
  (!typeDeclarations.contains around || sight.role != some .body ||
    (bodyConstructs.map Look.construct).contains sight.look) &&
  (contents around).all fun constructs =>
    sight.look == .mark || (constructs.map Look.construct).contains sight.look

/-- The children of a type pattern: the type and the name of the variable. -/
def typePatternOrder : List (List Sight) :=
  [(known .plainType).map (⟨·, none⟩), [⟨.construct .identifier, none⟩]]

/-- Whether the children of a construct look as lookups expect. -/
def regularShape (shape : Shape) : Bool :=
  !(nameConstructs ++ extraConstructs ++ keywordConstructs).contains shape.construct &&
  shape.sights.all (regularSight shape.construct) &&
  (!namedConstructs.contains shape.construct || shape.named) &&
  (shape.construct != .typePattern || shape.order == some typePatternOrder)

/-- Whether a rule by itself makes only what lookups expect. -/
def regular : Grammar.Rule → Bool
  | .leaf construct _ | .literal construct =>
    !(nameConstructs ++ extraConstructs ++ branchConstructs).contains construct
  | .name construct _ => nameConstructs.contains construct
  | .finish => false
  | rule => (rule.shapes known).all regularShape

/-- What a regular shape foresees of the children is what lookups expect. -/
theorem regularSight_of_regularShape {shape : Shape} (regular : regularShape shape = true)
    {sight : Sight} (listed : sight ∈ shape.sights) :
    regularSight shape.construct sight = true := by
  simp only [regularShape, Bool.and_eq_true, List.all_eq_true] at regular
  exact regular.1.1.2 sight listed

/-- A shape that foresees less of the children is regular, too. -/
theorem regularShape_of_subset {shape larger : Shape} (regular : regularShape larger = true)
    (construct : shape.construct = larger.construct) (named : shape.named = larger.named)
    (other : shape.construct ≠ .typePattern) (fewer : shape.sights ⊆ larger.sights) :
    regularShape shape = true := by
  unfold regularShape at regular ⊢
  simp only [Bool.and_eq_true] at regular ⊢
  obtain ⟨⟨⟨essential, sights⟩, hasName⟩, _⟩ := regular
  rw [construct, named]
  refine ⟨⟨⟨essential, ?_⟩, hasName⟩, ?_⟩
  · rw [List.all_eq_true] at sights ⊢
    exact fun sight listed => sights sight (fewer listed)
  · rw [← construct]
    simp [other]

/-- The operators that an expression of some floor is made with are among all operators. -/
theorem mem_operatorGrowths {floor : Nat} {arrow : Bool} {growth : Growth Grammar.Rule}
    (inside : growth ∈ ((operatorGrowths arrow).filter (floor ≤ ·.1)).map (·.2)) :
    growth ∈ (operatorGrowths arrow).map (·.2) := by
  obtain ⟨levelled, listed, rfl⟩ := List.mem_map.mp inside
  exact List.mem_map_of_mem (List.mem_filter.mp listed).1

/-- The named rules other than those of expressions, of which there is one for each floor. -/
def otherParts : List Part :=
  [.topLevel, .type, .plainType, .typeArguments, .typeParameters, .annotationUse, .dimensions,
    .modifiers, .parameters, .primary, .arguments, .stringLiteral, .arrayInitializer, .switch,
    .recordPattern, .statement, .block, .localVariable, .typeDeclaration, .declaration, .method,
    .classBody, .annotationValue]

/-- What holds of expressions and of the other named rules holds of every named rule. -/
theorem forall_parts {holds : Part → Prop}
    (expressions : ∀ floor arrow, holds (.expression floor arrow))
    (others : ∀ which ∈ otherParts, holds which) (which : Part) : holds which := by
  cases which with
  | expression floor arrow => exact expressions floor arrow
  | _ => exact others _ (by simp [otherParts])

/-- A check holds within every rule of the grammar if it holds within operands, within the tails of
operators, of whole expressions and within all other rules. Expressions may ask more of the
operators that they are made with. -/
theorem all_within_rules {check : Grammar.Rule → Bool} {asked : Bool → Growth Grammar.Rule → Bool}
    (operators : ∀ arrow, (operand arrow).within.all check = true ∧
      ((operatorGrowths arrow).map (·.2)).all (fun growth =>
        asked arrow growth && growth.tail.within.all check) = true)
    (expressions : ∀ floor arrow,
      (∀ growth ∈ ((operatorGrowths arrow).filter (floor ≤ ·.1)).map (·.2),
        asked arrow growth = true) → check (expressionAbove floor arrow) = true)
    (others : ∀ which ∈ otherParts, (rules which).within.all check = true)
    (which : Part) : ∀ inner ∈ (rules which).within, check inner = true := by
  refine List.all_eq_true.mp (forall_parts (fun floor arrow => ?_) others which)
  obtain ⟨operands, growths⟩ := operators arrow
  -- The floor only leaves some of the growths out.
  have each (growth : Growth Grammar.Rule)
      (applies : growth ∈ ((operatorGrowths arrow).filter (floor ≤ ·.1)).map (·.2)) :
      asked arrow growth = true ∧ growth.tail.within.all check = true :=
    Bool.and_eq_true_iff.mp (List.all_eq_true.mp growths growth (mem_operatorGrowths applies))
  rw [List.all_eq_true]
  intro inner inside
  rcases List.mem_cons.mp inside with rfl | inside
  · exact expressions floor arrow fun growth applies => (each growth applies).1
  · rcases List.mem_append.mp inside with inside | inside
    · exact List.all_eq_true.mp operands inner inside
    · obtain ⟨growth, applies, inside⟩ := Rule.mem_withinGrowths.mp inside
      exact List.all_eq_true.mp (each growth applies).2 inner inside

/-- What operands grow into is regular, and so are the rules of operands and operators. -/
theorem regular_expression (arrow : Bool) :
    (operand arrow).within.all regular = true ∧
      ((operatorGrowths arrow).map (·.2)).all (fun growth =>
        growth.construct != .typePattern &&
          regularShape (Rule.grownShape known (operand arrow) ((operatorGrowths arrow).map (·.2))
            growth) && growth.tail.within.all regular) = true := by
  cases arrow <;> decide +kernel

/-- All rules of the grammar make only what lookups expect. -/
theorem regular_rules : ∀ which, ∀ inner ∈ (rules which).within, regular inner = true := by
  refine all_within_rules regular_expression (fun floor arrow growths => ?_) (by decide +kernel)
  change (List.map (Rule.grownShape known (operand arrow) _) _).all regularShape = true
  rw [List.all_map, List.all_eq_true]
  intro growth applies
  have checked := growths growth applies
  simp only [Bool.and_eq_true, bne_iff_ne] at checked
  refine regularShape_of_subset checked.2 rfl rfl checked.1 fun sight listed => ?_
  simp only [Rule.grownShape, Rule.sights, List.map_append, List.mem_append, List.mem_map]
    at listed ⊢
  rcases listed with (seed | ⟨_, ⟨other, among, rfl⟩, rfl⟩) | tail
  · exact .inl (.inl seed)
  · obtain ⟨levelled, kept, rfl⟩ := among
    exact .inl (.inr ⟨_, ⟨_, ⟨levelled, (List.mem_filter.mp kept).1, rfl⟩, rfl⟩, rfl⟩)
  · exact .inr tail

/-! ## What is known of the named rules -/

/-- What operands look like, how many they are, and that operators make constructs. -/
theorem known_expression (arrow : Bool) :
    ((operand arrow).sights known).all (·.role == none) = true ∧
      (operand arrow).filled = true ∧
      ((operand arrow).order known).map List.length = some 1 ∧
      ((operatorGrowths arrow).map (·.2)).all (·.construct.isEssential) = true := by
  cases arrow <;> decide +kernel

/-- Every named rule is sure to read something. -/
theorem filled_rules : ∀ which, (rules which).filled = true := by
  refine forall_parts (fun floor arrow => ?_) (by decide +kernel)
  obtain ⟨_, filled, _, essential⟩ := known_expression arrow
  rw [rules, expressionAbove, Rule.filled, filled, Bool.true_and, List.all_eq_true]
  exact fun growth applies => List.all_eq_true.mp essential growth (mem_operatorGrowths applies)

/-- Every named rule reads one node, comments aside. -/
theorem length_order_rules : ∀ which, ((rules which).order known).map List.length = some 1 := by
  refine forall_parts (fun floor arrow => ?_) (by decide +kernel)
  obtain ⟨_, _, single, essential⟩ := known_expression arrow
  obtain ⟨order, same, length⟩ := Option.map_eq_some_iff.mp single
  have growths : (((operatorGrowths arrow).filter (floor ≤ ·.1)).map (·.2)).all
      (·.construct.isEssential) = true := by
    rw [List.all_eq_true]
    exact fun growth applies => List.all_eq_true.mp essential growth (mem_operatorGrowths applies)
  rw [rules, expressionAbove, Rule.order, same, Option.bind_some, growths, length]
  rfl

/-- Whether a named rule reads nodes without a role that look as is known of it. -/
def looksAsKnown (looks : Part → List Look) (which : Part) : Bool :=
  ((rules which).sights looks).all fun sight => sight.role == none &&
    ((looks which).contains .any || (looks which).contains sight.look)

/-- What is known of the named rules is true if every rule looks so and no floor makes a difference
to what is known of expressions. -/
theorem knows_of_looksAsKnown {looks : Part → List Look}
    (levels : ∀ floor arrow, looks (.expression floor arrow) = looks (.expression 0 arrow))
    (expressions : ∀ arrow, looksAsKnown looks (.expression 0 arrow) = true)
    (others : ∀ which ∈ otherParts, looksAsKnown looks which = true) : Rule.Knows rules looks where
  sights := by
    have checked : ∀ which, looksAsKnown looks which = true := by
      refine forall_parts (fun floor arrow => ?_) others
      rw [looksAsKnown, levels]
      refine List.all_eq_true.mpr fun sight listed =>
        List.all_eq_true.mp (expressions arrow) sight ?_
      rcases List.mem_append.mp listed with seed | growth
      · exact List.mem_append_left _ seed
      · obtain ⟨larger, applies, rfl⟩ := List.mem_map.mp growth
        obtain ⟨levelled, kept, rfl⟩ := List.mem_map.mp applies
        refine List.mem_append_right _ (List.mem_map_of_mem (List.mem_map_of_mem ?_))
        exact List.mem_filter.mpr ⟨(List.mem_filter.mp kept).1, by simp⟩
    intro which sight listed
    simpa using List.all_eq_true.mp (checked which) sight listed
  filled := filled_rules
  single := by
    intro which
    have length := (Rule.length_order looks known (rules which)).trans (length_order_rules which)
    obtain ⟨order, same, one⟩ := Option.map_eq_some_iff.mp length
    obtain ⟨sights, rfl⟩ := List.length_eq_one_iff.mp one
    exact ⟨sights, same⟩

/-- What is known of the named rules is true. -/
theorem knows_known : Rule.Knows rules known :=
  knows_of_looksAsKnown (fun _ _ => rfl) (by decide +kernel) (by decide +kernel)

/-- No named rule asks for the end of a source. -/
theorem endless_rules (which : Part) : (rules which).Endless := by
  intro inner inside
  have checked := regular_rules which inner inside
  rintro rfl
  contradiction

/-- What is declared in a file asks for its end nowhere, either. -/
theorem endless_declared : (Rule.part Part.topLevel : Grammar.Rule).many.Endless := by
  simp [Rule.Endless, Rule.within]

/-! ## Regular trees -/

/-- What every node of a well-formed tree is. -/
inductive Regular : Node → Prop
  /-- A comment. -/
  | comment {node : Node} (isComment : node.isComment = true) (childless : node.children = []) :
    Regular node
  /-- A keyword or a mark. -/
  | mark {node : Node} {text : String} (kind : node.kind = .mark text)
    (childless : node.children = []) (visible : node.start < node.stop) : Regular node
  /-- A keyword that is a construct, or a literal. -/
  | leaf {node : Node} {construct : Construct} (kind : node.kind = .construct construct)
    (other : construct ∉ nameConstructs ++ extraConstructs ++ branchConstructs)
    (childless : node.children = []) (visible : node.start < node.stop) : Regular node
  /-- A name. -/
  | name {node : Node} {construct : Construct} (kind : node.kind = .construct construct)
    (isName : construct ∈ nameConstructs) (childless : node.children = [])
    (visible : node.start < node.stop) (word : IsWord node.text) : Regular node
  /-- A construct around others. -/
  | branch {node : Node} {shape : Shape} (regular : regularShape shape = true)
    (fits : shape.Fits node) : Regular node

/-- What the rules of the grammar make is regular. -/
theorem Regular.of_made {node : Node} (made : Rule.Made rules known node) : Regular node := by
  cases made with
  | comment isComment childless => exact .comment isComment childless
  | @rule which rule _ inside makes =>
    have checked := regular_rules which rule inside
    cases makes with
    | mark kind childless visible => exact .mark kind childless visible
    | leaf kind childless visible | literal kind childless visible =>
      exact .leaf kind (by simpa [regular] using checked) childless visible
    | name kind childless visible word =>
      exact .name kind (by simpa [regular] using checked) childless visible word
    | @branch _ _ shape shaped fits =>
      refine .branch ?_ fits
      have all : (rule.shapes known).all regularShape = true := by
        cases rule <;> first | exact checked | simp [Rule.shapes] at shaped
      exact List.all_eq_true.mp all shape shaped

namespace WellFormed

variable {root : Node} {place : Place}

/-- A well-formed tree is a file. -/
theorem root_is_program (wf : WellFormed root) : (Place.root root).is .program = true := by
  obtain ⟨_, _, _, _, _, _, _, rfl⟩ := wf
  exact Place.is_iff.mpr rfl

/-- A well-formed tree is laid out. -/
theorem laid (wf : WellFormed root) : root.Laid := by
  obtain ⟨tokens, nodes, rest, length, sound, lie, reads, rfl⟩ := wf
  have laidNodes : ∃ stop, stop ≤ length ∧ Node.Lie 0 nodes stop := by
    obtain ⟨declared, last, more, first, _, rfl, _⟩ := exists_of_reads_file reads
    obtain ⟨middle, front, left⟩ := first.lie endless_rules sound endless_declared lie
    cases left with
    | @cons _ stop _ _ _ comments after width later =>
      have room := later.le
      exact ⟨stop, by omega, front.append comments⟩
  obtain ⟨stop, room, laidNodes⟩ := laidNodes
  change Node.Lie ((nodes.head?.map Node.start).getD length) nodes length
  cases nodes with
  | nil => exact .nil (Nat.le_refl _)
  | cons first others =>
    cases laidNodes with
    | cons after inside later =>
      exact .cons (Nat.le_refl _) inside (later.widen (Nat.le_refl _) room)

/-- All nodes inside a well-formed tree are made by the rules of the grammar. -/
theorem made (wf : WellFormed root) :
    ∀ child ∈ root.children, child.Everywhere (Rule.Made rules known) := by
  obtain ⟨tokens, nodes, rest, length, sound, lie, reads, rfl⟩ := wf
  -- The rule of a file makes no node by itself, but what makes a mark may be any rule.
  have itself : rules .topLevel ∈ (rules .topLevel).within := Rule.mem_within_self
  refine reads.made knows_known sound fun inner inside node makes => ?_
  suffices isMark : (Rule.part Part.topLevel : Grammar.Rule).Makes known node from
    .rule itself <| by
      cases isMark with
      | mark kind childless visible => exact .mark kind childless visible
      | branch shaped => simp [Rule.shapes] at shaped
  rcases mem_within_file.mp inside with rfl | rfl | rfl | rfl <;> cases makes with
    | mark kind childless visible => exact .mark kind childless visible
    | branch shaped => simp [file, Rule.shapes] at shaped

/-- All nodes of a well-formed tree are regular. -/
theorem regular (wf : WellFormed root) : root.Everywhere Regular := by
  have made := wf.made
  obtain ⟨tokens, nodes, rest, length, sound, lie, reads, rfl⟩ := wf
  have cover := reads.cover knows_known sound
  have checked : regularShape ⟨.program, Rule.sights known file, none, false⟩ = true := by decide
  exact .intro (.branch checked ⟨rfl, cover, by simp, by simp⟩) fun child below =>
    (made child below).mono fun _ => .of_made

/-- Every place of a well-formed tree is regular. -/
theorem regular_at (wf : WellFormed root) (held : root.Holds place) : Regular place.node :=
  (wf.regular.at_place held).here

/-- The children of a construct look as lookups expect, but for comments, which have no role. -/
theorem regular_child (wf : WellFormed root) (held : root.Holds place) {child : Place}
    (below : child ∈ place.children) :
    ∃ construct, place.kind = .construct construct ∧
      (child.node.isExtra = true ∧ child.node.role = none ∨
        ∃ sight, regularSight construct sight = true ∧ sight.Fits child.node) := by
  have inside := Place.node_mem_of_mem_children below
  cases wf.regular_at held with
  | comment _ childless | mark _ childless _ | leaf _ _ childless _ | name _ _ childless _ _ =>
    simp [childless] at inside
  | @branch shape regular fits =>
    refine ⟨shape.construct, fits.kind, ?_⟩
    rcases fits.cover child.node inside with extra | ⟨_, sight, listed, looks⟩
    · exact .inl extra
    · exact .inr ⟨sight, regularSight_of_regularShape regular listed, looks⟩

/-- A construct that is sure to have children has a regular shape. -/
theorem regular_branch (wf : WellFormed root) (held : root.Holds place)
    (branches : place.isAny branchConstructs = true) :
    ∃ shape, regularShape shape = true ∧ shape.Fits place.node := by
  obtain ⟨construct, listed, itself⟩ := Place.isAny_iff.mp branches
  cases wf.regular_at held with
  | comment isComment childless =>
    have other : place.isAny Place.commentConstructs = false :=
      Place.isAny_eq_false branches (by decide)
    exact absurd isComment (Bool.eq_false_iff.mp other)
  | mark kind => cases itself.symm.trans kind
  | leaf kind other =>
    obtain rfl : _ = construct := by simpa using kind.symm.trans itself
    simp [listed] at other
  | name kind isName =>
    have other : place.isAny nameConstructs = false :=
      Place.isAny_eq_false branches (by decide)
    exact absurd (Place.isAny_iff.mpr ⟨_, isName, kind⟩) (Bool.eq_false_iff.mp other)
  | branch regular fits => exact ⟨_, regular, fits⟩

/-! ### Tokens -/

/-- A name is a token with the text of a name. -/
theorem name_token (wf : WellFormed root) (held : root.Holds place)
    (isName : place.isAny nameConstructs = true) :
    place.node.children = [] ∧ place.start < place.stop ∧ IsWord place.text := by
  obtain ⟨construct, listed, itself⟩ := Place.isAny_iff.mp isName
  cases wf.regular_at held with
  | comment isComment childless =>
    have other : place.isAny Place.commentConstructs = false :=
      Place.isAny_eq_false isName (by decide)
    exact absurd isComment (Bool.eq_false_iff.mp other)
  | mark kind => simp [kind, Place.kind] at itself
  | leaf kind other =>
    obtain rfl : _ = construct := by simpa [Place.kind, kind] using itself
    simp [listed] at other
  | name kind isName childless visible word => exact ⟨childless, visible, word⟩
  | @branch shape regular fits =>
    obtain rfl : shape.construct = construct := by
      simpa [Place.kind, fits.kind] using itself
    simp [regularShape, listed] at regular

/-- A mark is a token. -/
theorem mark_token (wf : WellFormed root) (held : root.Holds place) {text : String}
    (isMark : place.kind = .mark text) : place.node.children = [] ∧ place.start < place.stop := by
  cases wf.regular_at held with
  | comment isComment childless =>
    obtain ⟨construct, _, kind⟩ := Node.isAny_iff.mp isComment
    cases isMark.symm.trans kind
  | mark kind childless visible => exact ⟨childless, visible⟩
  | leaf kind | name kind => cases isMark.symm.trans kind
  | branch regular fits => cases isMark.symm.trans fits.kind

/-- A keyword that is a construct is a token. -/
theorem keyword_token (wf : WellFormed root) (held : root.Holds place)
    (isKeyword : place.isAny keywordConstructs = true) :
    place.node.children = [] ∧ place.start < place.stop := by
  obtain ⟨construct, listed, itself⟩ := Place.isAny_iff.mp isKeyword
  cases wf.regular_at held with
  | comment isComment childless =>
    have other : place.isAny Place.commentConstructs = false :=
      Place.isAny_eq_false isKeyword (by decide)
    exact absurd isComment (Bool.eq_false_iff.mp other)
  | mark kind => cases itself.symm.trans kind
  | leaf kind other childless visible => exact ⟨childless, visible⟩
  | name kind isName childless visible => exact ⟨childless, visible⟩
  | @branch shape regular fits =>
    obtain rfl : shape.construct = construct := by
      simpa [Place.kind, fits.kind] using itself
    simp [regularShape, listed] at regular

/-- What has children is a part, and not a comment or a mark. -/
theorem isPart_of_mem_children (wf : WellFormed root) (held : root.Holds place) {child : Place}
    (below : child ∈ place.children) : place.node.isPart = true := by
  have inside := Place.node_mem_of_mem_children below
  cases wf.regular_at held with
  | comment _ childless | mark _ childless _ | leaf _ _ childless _ | name _ _ childless _ _ =>
    simp [childless] at inside
  | @branch shape regular fits =>
    rw [Node.isPart, Node.isConstruct, fits.kind, Bool.true_and, Bool.not_eq_true',
      Bool.eq_false_iff]
    intro isComment
    obtain ⟨comment, listed, kind⟩ := Node.isAny_iff.mp isComment
    obtain rfl : shape.construct = comment := by simpa using fits.kind.symm.trans kind
    simp only [List.mem_cons, List.not_mem_nil, or_false] at listed
    rcases listed with is | is <;> simp [regularShape, is, extraConstructs] at regular

/-- The list of all places of a well-formed tree holds every place that is a part. -/
theorem mem_places (wf : WellFormed root) (held : root.Holds place)
    (isPart : place.node.isPart = true) : place ∈ root.places [] := by
  refine held.mem_places fun around outward _ => ?_
  rcases Place.mem_outward.mp outward with rfl | ancestor
  · exact isPart
  · obtain ⟨child, below, _⟩ := held.exists_child_of_ancestor ancestor
    exact wf.isPart_of_mem_children (held.of_ancestor ancestor) below

/-- No part of a well-formed tree was set aside by a repair. -/
theorem isExtra_of_isPart (wf : WellFormed root) (held : root.Holds place)
    (isPart : place.node.isPart = true) : place.node.isExtra = false := by
  simp only [Node.isPart, Bool.and_eq_true, Bool.not_eq_true'] at isPart
  rw [Node.isExtra, isPart.2, Bool.false_or, Bool.eq_false_iff]
  intro isError
  have kind := Node.is_iff.mp isError
  cases wf.regular_at held with
  | comment isComment childless => simp [isComment] at isPart
  | mark other => cases kind.symm.trans other
  | leaf itself other =>
    obtain rfl : _ = Construct.error := by simpa using itself.symm.trans kind
    exact absurd (by decide) other
  | name itself isName =>
    obtain rfl : _ = Construct.error := by simpa using itself.symm.trans kind
    exact absurd isName (by decide)
  | @branch shape regular fits =>
    have same : shape.construct = .error := by simpa using fits.kind.symm.trans kind
    simp [regularShape, same, extraConstructs] at regular

/-! ### Roles -/

/-- A child in a role looks as lookups expect of it. -/
theorem regular_role (wf : WellFormed root) (held : root.Holds place) {child : Place} {role : Role}
    (below : child ∈ place.children) (has : child.node.role = some role) :
    ∃ construct sight, place.kind = .construct construct ∧
      regularSight construct sight = true ∧ sight.role = some role ∧
      sight.look.Fits child.kind := by
  obtain ⟨construct, kind, ⟨_, free⟩ | ⟨sight, regular, look, same⟩⟩ := wf.regular_child held below
  · simp [has] at free
  · exact ⟨construct, sight, kind, regular, same.symm.trans has, look⟩

/-- What the rules of the grammar call a declarator is one. -/
theorem is_variableDeclarator (wf : WellFormed root) (held : root.Holds place) {child : Place}
    (below : child ∈ place.children) (role : child.node.role = some .declarator) :
    child.is .variableDeclarator = true := by
  obtain ⟨construct, sight, _, regular, same, look⟩ := wf.regular_role held below role
  have looks : sight.look = .construct .variableDeclarator := by
    simp_all [regularSight]
  rw [looks] at look
  exact Place.is_iff.mpr look

/-- The parts of what a try statement opens are resources. -/
theorem is_resource (wf : WellFormed root) (held : root.Holds place) {list part : Place}
    (found : place.child? .resources = some list) (inside : part ∈ list.parts) :
    part.is .resource = true := by
  obtain ⟨below, role⟩ := Place.mem_children_of_child? found
  obtain ⟨below', isPart⟩ := Place.mem_parts.mp inside
  obtain ⟨_, sight, _, regular, same, look⟩ := wf.regular_role held below role
  have looks : sight.look = .construct .resourceSpecification := by
    simp_all [regularSight]
  rw [looks] at look
  obtain ⟨construct, kind, ⟨extra, _⟩ | ⟨sight', regular', look', _⟩⟩ :=
    wf.regular_child (held.child below) below'
  · rw [wf.isExtra_of_isPart ((held.child below).child below') isPart] at extra
    contradiction
  · obtain rfl : construct = .resourceSpecification := by simpa using kind.symm.trans look
    have looks' : sight'.look = .mark ∨ sight'.look = .construct .resource := by
      simp_all [regularSight]
    rcases looks' with mark | itself
    · rw [mark] at look'
      obtain ⟨text, isMark⟩ := look'
      simp [Node.isPart, Node.isConstruct, isMark] at isPart
    · rw [itself] at look'
      exact Place.is_iff.mpr look'

/-- What declares a type, a method or a constructor has a name, which is an identifier. -/
theorem exists_name (wf : WellFormed root) (held : root.Holds place)
    (named : place.isAny namedConstructs = true) :
    ∃ name, place.child? .name = some name ∧ name.is .identifier = true := by
  obtain ⟨construct, listed, itself⟩ := Place.isAny_iff.mp named
  have some_name : (place.child? .name).isSome := by
    obtain ⟨shape, regular, fits⟩ :=
      wf.regular_branch held (Place.isAny_mono named (by decide))
    obtain rfl : shape.construct = construct := by simpa using fits.kind.symm.trans itself
    have hasName : shape.named = true := by
      simp only [regularShape, Bool.and_eq_true, Bool.or_eq_true, Bool.not_eq_true',
        List.contains_eq_mem, decide_eq_false_iff_not, listed, not_true, false_or] at regular
      exact regular.1.2
    obtain ⟨node, inside, role⟩ := fits.named hasName
    obtain ⟨child, below, rfl⟩ := Place.exists_mem_children inside
    exact List.find?_isSome.mpr ⟨child, below, by simp [role]⟩
  obtain ⟨name, found⟩ := Option.isSome_iff_exists.mp some_name
  obtain ⟨below, role⟩ := Place.mem_children_of_child? found
  obtain ⟨_, sight, kind, regular, same, look⟩ := wf.regular_role held below role
  obtain rfl : _ = construct := by simpa using kind.symm.trans itself
  have looks : sight.look = .construct .identifier := by
    simp_all [regularSight]
  rw [looks] at look
  exact ⟨name, found, Place.is_iff.mpr look⟩

/-- The body of a declared type is one of the constructs that hold members. -/
theorem is_body (wf : WellFormed root) (held : root.Holds place) {body : Place}
    (declares : place.isTypeDeclaration = true) (found : place.child? .body = some body) :
    body.isAny bodyConstructs = true := by
  obtain ⟨construct, listed, itself⟩ := Place.isAny_iff.mp declares
  obtain ⟨below, role⟩ := Place.mem_children_of_child? found
  obtain ⟨_, sight, kind, regular, same, look⟩ := wf.regular_role held below role
  obtain rfl : _ = construct := by simpa using kind.symm.trans itself
  have looks : ∃ body ∈ bodyConstructs, Look.construct body = sight.look := by
    simp_all [regularSight]
  obtain ⟨construct, isBody, looks⟩ := looks
  rw [← looks] at look
  exact Place.isAny_iff.mpr ⟨construct, isBody, look⟩

end WellFormed

end Grammar
end CaretName
