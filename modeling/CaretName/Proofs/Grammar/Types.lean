import CaretName.Proofs.Grammar.Paths
import CaretName.Proofs.Tree.Pieces

/-!
# How types are put together

What a parameter is shown as depends on the last segment of its type, on the type parameters around
it and on the brackets after its name. The sights of a rule do not tell which of several parts comes
last, and how many there are. The rules do: a scoped type ends in the name of a type, type arguments
stand behind one type that has none of its own, a type parameter has one name, and where brackets
are written one of them can be seen.
-/
namespace CaretName

namespace Grammar

/-- Types that type arguments can follow. -/
def rawTypes : List Construct := [.typeIdentifier, .scopedTypeIdentifier]

/-- Constructs of types that only grow from others. -/
def grownTypes : List Construct := [.scopedTypeIdentifier, .genericType]

/-- Constructs around the name of a type parameter, and around brackets. -/
def wrappedTypes : List Construct := [.typeParameter, .dimensions]

/-- Whether a rule reads a dot and, behind annotations, the name of a type. -/
def readsTypeSegment : Grammar.Rule → Bool
  | .seq [.text ".", .many (.part .annotationUse), .name .typeIdentifier _] => true
  | _ => false

/-- Whether a rule never reads a name. -/
def passesNames (rule : Grammar.Rule) : Bool :=
  (rule.sights known).all fun sight =>
    match sight.look with
    | .any => false
    | .mark => true
    | .construct construct => !nameConstructs.contains construct

/-- Whether a rule reads the name of a type among what is no name. -/
def readsTypeName : Grammar.Rule → Bool
  | .seq [front, .name .typeIdentifier _, back] => passesNames front && passesNames back
  | _ => false

/-- Whether a rule reads an opening bracket first of all, annotations aside. -/
def readsBracket : Grammar.Rule → Bool
  | .seq [.seq [.many (.part .annotationUse), .text "[", _], _] => true
  | _ => false

/-- Whether a rule always reads one type that is no array. -/
def readsSimpleType (rule : Grammar.Rule) : Bool :=
  match rule.order known with
  | some [sights] => sights.all fun sight => (simpleTypes.map Look.construct).contains sight.look
  | _ => false

/-- Whether what a rule reads can only grow by type arguments if it is a type that can have some. -/
def readsGeneric (base : Grammar.Rule) (growth : Growth Grammar.Rule) : Bool :=
  match growth.tail with
  | .part .typeArguments => readsSimpleType base &&
      simpleTypes.all fun construct => !growth.onto construct || rawTypes.contains construct
  | _ => false

/-- Whether a rule makes such types, type parameters and brackets only in the way that is
expected. -/
def typed : Grammar.Rule → Bool
  | .leaf construct _ | .name construct _ | .literal construct =>
    !(grownTypes ++ wrappedTypes).contains construct
  | .node construct rule =>
    !grownTypes.contains construct && (construct != .typeParameter || readsTypeName rule) &&
      (construct != .dimensions || readsBracket rule)
  | .grow seed growths => growths.all fun growth =>
    !wrappedTypes.contains growth.construct &&
      (growth.construct != .scopedTypeIdentifier || readsTypeSegment growth.tail) &&
      (growth.construct != .genericType || readsGeneric (.grow seed growths) growth)
  | _ => true

/-- Operands and operators make none of these. -/
theorem typed_expression (arrow : Bool) : (operand arrow).within.all typed = true ∧
    ((operatorGrowths arrow).map (·.2)).all (fun growth =>
      !(grownTypes ++ wrappedTypes).contains growth.construct &&
        growth.tail.within.all typed) = true := by
  cases arrow <;> decide +kernel

/-- All rules of the grammar put types together as expected. -/
theorem typed_rules : ∀ which, ∀ inner ∈ (rules which).within, typed inner = true := by
  refine all_within_rules typed_expression (fun floor arrow growths => ?_) (by decide +kernel)
  rw [expressionAbove, typed, List.all_eq_true]
  intro growth applies
  have checked := growths growth applies
  simp only [grownTypes, List.cons_append, List.nil_append, List.contains_eq_mem, List.mem_cons,
    Bool.not_eq_true', decide_eq_false_iff_not, not_or] at checked
  simp [checked]

/-- What a rule of the grammar is known to make. -/
theorem typed_of_belongs {rule : Grammar.Rule} (belongs : Rule.Belongs rules rule) :
    typed rule = true := by
  obtain ⟨which, inside⟩ := belongs
  exact typed_rules which rule inside

end Grammar

open Grammar

namespace Rule.Reads

variable {rule : Grammar.Rule} {tokens rest : List Token} {nodes : List Node}

/-- A name is read as a leaf and comments. -/
theorem essentials_name {construct : Construct} {reserved : List String}
    (sound : ∀ token ∈ tokens, token.Sound) (essential : construct.isEssential = true)
    (reads : Reads rules (.name construct reserved) tokens nodes rest) :
    ∃ name, Node.essentials nodes = [name] ∧ name.is construct = true := by
  cases reads with
  | @name _ _ token _ named =>
    have leaf : (token.leaf (.construct construct)).isExtra = false := Token.isExtra_leaf essential
    exact ⟨_, (sound _ List.mem_cons_self).essentials_nodes leaf, Node.is_iff.mpr rfl⟩

/-- A dot and the name of a type end in the name. -/
theorem typeSegment (reads : Reads rules rule tokens nodes rest)
    (sound : ∀ token ∈ tokens, token.Sound) (isSegment : readsTypeSegment rule = true) :
    ∃ front name, Node.essentials nodes = front ++ [name] ∧ name.is .typeIdentifier = true := by
  unfold readsTypeSegment at isSegment
  split at isSegment
  · cases reads with
    | @seqCons _ _ _ _ _ front _ dot later =>
      have soundDot := dot.sound_rest sound
      cases later with
      | @seqCons _ _ _ _ _ between _ annotations later =>
        have soundName := annotations.sound_rest soundDot
        cases later with
        | seqCons last nothing =>
          cases nothing
          obtain ⟨name, single, isName⟩ := last.essentials_name soundName rfl
          refine ⟨Node.essentials front ++ Node.essentials between, name, ?_, isName⟩
          rw [List.append_nil, Node.essentials_append, Node.essentials_append, single,
            List.append_assoc]
  · contradiction

/-- A rule that reads no names makes none. -/
theorem passesNames (reads : Reads rules rule tokens nodes rest)
    (sound : ∀ token ∈ tokens, token.Sound) (passes : Grammar.passesNames rule = true) :
    ∀ node ∈ Node.essentials nodes, node.isAny nameConstructs = false := by
  intro node inside
  obtain ⟨inside, meant⟩ := Node.mem_essentials.mp inside
  rw [Bool.eq_false_iff]
  intro isName
  obtain ⟨construct, listed, kind⟩ := Node.isAny_iff.mp isName
  rcases reads.cover knows_known sound node inside with ⟨extra, _⟩ | ⟨_, sight, among, fits⟩
  · rw [meant] at extra
    contradiction
  · have other := List.all_eq_true.mp passes sight among
    have look := fits.1
    rw [kind] at look
    cases looks : sight.look with
    | any => simp [looks] at other
    | mark =>
      rw [looks] at look
      obtain ⟨_, same⟩ := look
      cases same
    | construct own =>
      rw [looks] at look
      obtain rfl := Kind.construct.inj look
      simp [looks, listed] at other

/-- The name of a type among what is no name. -/
theorem typeName (reads : Reads rules rule tokens nodes rest)
    (sound : ∀ token ∈ tokens, token.Sound) (isNamed : readsTypeName rule = true) :
    ∃ front name back, Node.essentials nodes = front ++ name :: back ∧
      name.is .typeIdentifier = true ∧ ∀ node ∈ front ++ back, node.isAny nameConstructs = false := by
  unfold readsTypeName at isNamed
  split at isNamed
  · obtain ⟨passesFront, passesBack⟩ := Bool.and_eq_true_iff.mp isNamed
    cases reads with
    | seqCons first later =>
      have soundName := first.sound_rest sound
      cases later with
      | seqCons second later =>
        cases later with
        | seqCons third nothing =>
          cases nothing
          obtain ⟨name, single, isName⟩ := second.essentials_name soundName rfl
          refine ⟨_, name, _, ?_, isName, List.forall_mem_append.mpr
            ⟨first.passesNames sound passesFront,
              third.passesNames (second.sound_rest soundName) passesBack⟩⟩
          rw [List.append_nil, Node.essentials_append, Node.essentials_append, single]
          rfl
  · contradiction

/-- Brackets are opened by one. -/
theorem bracket (reads : Reads rules rule tokens nodes rest)
    (sound : ∀ token ∈ tokens, token.Sound) (isBracket : readsBracket rule = true) :
    ∃ node ∈ nodes, node.isExtra = false ∧ ∃ gap, node.pieces = [⟨gap, "["⟩] := by
  unfold readsBracket at isBracket
  split at isBracket
  · cases reads with
    | seqCons first _ =>
      cases first with
      | seqCons annotations later =>
        have soundBracket := annotations.sound_rest sound
        cases later with
        | seqCons opening _ =>
          cases opening with
          | @text _ token _ spells =>
            have text := text_of_spells (soundBracket _ List.mem_cons_self) spells
            refine ⟨token.leaf (.mark "["), by simp [Token.nodes], rfl, token.gap, ?_⟩
            rw [Token.leaf, Node.pieces, text]
  · contradiction

/-- A rule that reads one type that is no array reads nothing else but comments. -/
theorem simpleType (reads : Reads rules rule tokens nodes rest)
    (sound : ∀ token ∈ tokens, token.Sound) (isSimple : readsSimpleType rule = true) :
    ∃ node construct, Node.essentials nodes = [node] ∧ construct ∈ simpleTypes ∧
      node.kind = .construct construct := by
  unfold readsSimpleType at isSimple
  split at isSimple
  · next sights order =>
    have matched := reads.inOrder knows_known sound _ order
    obtain ⟨node, _, ⟨sight, listed, fits⟩, none, single⟩ := List.forall₂_cons_left_iff.mp matched
    obtain rfl := List.forall₂_nil_left_iff.mp none
    have looks := List.contains_iff_mem.mp (List.all_eq_true.mp isSimple sight listed)
    obtain ⟨construct, among, look⟩ := List.mem_map.mp looks
    have kind := fits.1
    rw [← look] at kind
    exact ⟨node, construct, single, among, kind⟩
  · contradiction

end Rule.Reads

namespace Rule.Origin

variable {node : Node} {construct : Construct}

/-- What one of the types grows from and what follows it. -/
theorem of_grownTypes (origin : Origin rules node) (kind : node.kind = .construct construct)
    (listed : construct ∈ grownTypes) :
    ∃ seed growths growth tokens middle rest nodes tail,
      (construct ≠ .scopedTypeIdentifier ∨ readsTypeSegment growth.tail = true) ∧
      (construct ≠ .genericType ∨ readsGeneric (.grow seed growths) growth = true) ∧
      Reads rules (.grow seed growths) tokens nodes middle ∧
      Reads rules growth.tail middle tail rest ∧ (∀ token ∈ tokens, token.Genuine) ∧
      (leadingConstruct? nodes).any growth.onto = true ∧
      Node.essentials node.children =
        Node.essentials (growth.base nodes) ++ Node.essentials tail ∧
      node.children.head? = (Node.essentials node.children).head? := by
  cases origin.built kind with
  | comment among =>
    have apart : ∀ construct ∈ grownTypes,
        construct ∉ [Construct.lineComment, .blockComment] := by decide
    exact absurd among (apart construct listed)
  | leaf belongs | name belongs | literal belongs | node belongs =>
    have checked := typed_of_belongs belongs
    simp [typed, listed] at checked
  | @growth seed growths growth tokens middle rest nodes tail belongs applies makes base later
      genuine children onto =>
    obtain rfl := makes
    have checked := List.all_eq_true.mp (typed_of_belongs belongs) growth applies
    simp only [Bool.and_eq_true, Bool.or_eq_true, bne_iff_ne] at checked
    refine ⟨seed, growths, growth, tokens, middle, rest, nodes, tail, checked.1.2, checked.2, base,
      later, genuine, onto, ?_⟩
    rw [children, Node.essentials_dropWhile, Node.essentials_append, Node.head?_dropWhile,
      Node.essentials_append]
    exact ⟨rfl, rfl⟩

/-- What a type parameter and brackets are put around. -/
theorem of_wrappedTypes (origin : Origin rules node) (kind : node.kind = .construct construct)
    (listed : construct ∈ wrappedTypes) :
    ∃ rule tokens rest nodes, (construct ≠ .typeParameter ∨ readsTypeName rule = true) ∧
      (construct ≠ .dimensions ∨ readsBracket rule = true) ∧
      Reads rules rule tokens nodes rest ∧ (∀ token ∈ tokens, token.Genuine) ∧
      node.children = nodes.dropWhile Node.isExtra := by
  cases origin.built kind with
  | comment among =>
    have apart : ∀ construct ∈ wrappedTypes,
        construct ∉ [Construct.lineComment, .blockComment] := by decide
    exact absurd among (apart construct listed)
  | leaf belongs | name belongs | literal belongs =>
    have checked := typed_of_belongs belongs
    simp [typed, listed] at checked
  | @node rule tokens rest nodes belongs reads genuine children =>
    have checked := typed_of_belongs belongs
    simp only [typed, Bool.and_eq_true, Bool.or_eq_true, bne_iff_ne] at checked
    exact ⟨rule, tokens, rest, nodes, checked.1.2, checked.2, reads, genuine, children⟩
  | growth belongs applies makes =>
    obtain rfl := makes
    have checked := List.all_eq_true.mp (typed_of_belongs belongs) _ applies
    simp [listed] at checked

/-- A scoped type ends in the name of a type. -/
theorem scopedTypeIdentifier (origin : Origin rules node)
    (isScoped : node.is .scopedTypeIdentifier = true) :
    ∃ front name, Node.essentials node.children = front ++ [name] ∧
      name.is .typeIdentifier = true := by
  obtain ⟨_, _, growth, _, _, _, nodes, tail, segment, _, base, later, genuine, _, children, _⟩ :=
    origin.of_grownTypes (Node.is_iff.mp isScoped) (by decide)
  have sound := fun token inside => (base.genuine_rest genuine token inside).sound
  obtain ⟨front, name, last, isName⟩ :=
    later.typeSegment sound (segment.resolve_left (by simp))
  exact ⟨Node.essentials (growth.base nodes) ++ front, name,
    by rw [children, last, List.append_assoc], isName⟩

/-- A generic type is a type without type arguments of its own, which comes first, and type
arguments. -/
theorem genericType (origin : Origin rules node) (isGeneric : node.is .genericType = true) :
    ∃ raw arguments, Node.essentials node.children = [raw, arguments] ∧
      node.children.head? = Option.some raw ∧
      raw.isAny rawTypes = true ∧ arguments.is .typeArguments = true := by
  obtain ⟨seed, growths, growth, _, _, _, nodes, tail, _, generic, base, later, genuine, onto,
    children, head⟩ := origin.of_grownTypes (Node.is_iff.mp isGeneric) (by decide)
  have generic := generic.resolve_left (by simp)
  unfold readsGeneric at generic
  split at generic
  · next isArguments =>
    rw [isArguments] at later
    have checked := Bool.and_eq_true_iff.mp generic
    obtain ⟨node, construct, single, simple, kind⟩ :=
      base.simpleType (fun token inside => (genuine token inside).sound) checked.1
    obtain ⟨raw, front, same⟩ := Node.essentials_base growth single
    have leads : leadingConstruct? nodes = Option.some construct := by
      have first : nodes.find? (!·.isExtra) = Option.some node := by
        rw [← List.head?_filter]
        exact congrArg List.head? single
      simp [leadingConstruct?, first, kind]
    have isRaw : construct ∈ rawTypes := by
      have grows : growth.onto construct = true := by simpa [leads] using onto
      simpa [grows] using List.all_eq_true.mp checked.2 construct simple
    have matched := later.inOrder knows_known
      (fun token inside => (base.genuine_rest genuine token inside).sound) _ rfl
    obtain ⟨arguments, _, ⟨sight, listed, fits⟩, none, back⟩ := List.forall₂_cons_left_iff.mp matched
    obtain rfl := List.forall₂_nil_left_iff.mp none
    obtain rfl := List.mem_singleton.mp listed
    rw [front, back] at children
    exact ⟨raw, arguments, children, by rw [head, children]; rfl,
      Node.isAny_iff.mpr ⟨construct, isRaw, same.trans kind⟩, Node.is_iff.mpr fits.1⟩
  · contradiction

/-- A type parameter has one name. -/
theorem typeParameter (origin : Origin rules node) (isParameter : node.is .typeParameter = true) :
    ∃ front name back, Node.essentials node.children = front ++ name :: back ∧
      name.is .typeIdentifier = true ∧ ∀ node ∈ front ++ back, node.isAny nameConstructs = false := by
  obtain ⟨rule, _, _, nodes, named, _, reads, genuine, children⟩ :=
    origin.of_wrappedTypes (Node.is_iff.mp isParameter) (by decide)
  rw [children, Node.essentials_dropWhile]
  exact reads.typeName (fun token inside => (genuine token inside).sound)
    (named.resolve_left (by simp))

/-- Brackets that are written can be seen. -/
theorem dimensions (origin : Origin rules node) (isDimensions : node.is .dimensions = true) :
    ∃ child ∈ node.children, ∃ gap, child.pieces = [⟨gap, "["⟩] := by
  obtain ⟨rule, _, _, nodes, _, brackets, reads, genuine, children⟩ :=
    origin.of_wrappedTypes (Node.is_iff.mp isDimensions) (by decide)
  obtain ⟨child, inside, meant, seen⟩ := reads.bracket
    (fun token inside => (genuine token inside).sound) (brackets.resolve_left (by simp))
  exact ⟨child, children ▸ mem_dropWhile_of_not_extra inside meant, seen⟩

end Rule.Origin

end CaretName
