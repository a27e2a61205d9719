import CaretName.Proofs.Grammar.Nesting
import CaretName.Proofs.SourceFile.Inheritance
import CaretName.Proofs.SourceFile.Meaning

/-!
# Receivers in parentheses

The type scope of an expression in parentheses is that of the first construct between them. In a
tree without errors this is the expression, unless a comment stands in front of it: the comment
then counts as what is in the parentheses, and has no scope. Comments behind the expression do no
harm. One such comment is enough, in whichever pair of parentheses it stands.
-/
namespace CaretName

open Grammar

namespace Place

variable {root : Node} {place inner part : Place} {groups : List Place}

/-- Whether a comment stands right behind the opening parenthesis. -/
def startsWithComment (group : Place) : Bool := group.constructs.head?.any (·.node.isComment)

/-- An expression stands in parentheses, and these in others, which are listed from the outside
in. -/
inductive Parenthesizes (inner : Place) : List Place → Place → Prop
  /-- No parentheses. -/
  | bare : Parenthesizes inner [] inner
  /-- One more pair of parentheses. -/
  | around {groups : List Place} {part place : Place} (within : Parenthesizes inner groups part)
    (isGroup : place.is .parenthesizedExpression = true) (listed : part ∈ place.parts) :
    Parenthesizes inner (place :: groups) place

/-- What stands in parentheses is the first construct in them if no comment precedes it. -/
theorem head?_constructs_of_group (wf : WellFormed root) (held : root.Holds place)
    (isGroup : place.is .parenthesizedExpression = true) (listed : part ∈ place.parts)
    (plain : place.startsWithComment = false) : place.constructs.head? = some part := by
  obtain ⟨below, isPart⟩ := mem_parts.mp listed
  have among : part ∈ place.constructs :=
    List.mem_filter.mpr ⟨below, (Bool.and_eq_true_iff.mp isPart).1⟩
  cases head : place.constructs.head? with
  | none =>
    rw [List.head?_eq_none_iff.mp head] at among
    contradiction
  | some first =>
    obtain ⟨below', isConstruct⟩ := List.mem_filter.mp (List.mem_of_head? head)
    have noComment : first.node.isComment = false := by simpa [startsWithComment, head] using plain
    have isPart' : first.node.isPart = true := by simp [Node.isPart, isConstruct, noComment]
    rw [wf.eq_of_mem_parts_of_group held isGroup listed first (mem_parts.mpr ⟨below', isPart'⟩)]

end Place

namespace SourceFile

variable {file : SourceFile} {place inner : Place} {groups : List Place}

/-! ## Scopes -/

/-- The scope of an expression in parentheses is that of the first construct in them. -/
theorem receiver?_of_group (isGroup : place.is .parenthesizedExpression = true) :
    file.receiver? place = place.constructs.head?.bind file.receiver? := by
  rw [receiver?_eq, receiverStep, Place.is_iff.mp isGroup]

/-- A comment has no scope. -/
theorem receiver?_of_isComment (isComment : place.node.isComment = true) :
    file.receiver? place = none := by
  obtain ⟨construct, listed, kind⟩ := Node.isAny_iff.mp isComment
  have kind : place.kind = .construct construct := kind
  simp only [List.mem_cons, List.not_mem_nil, or_false] at listed
  rcases listed with rfl | rfl <;> rw [receiver?_eq, receiverStep, kind]

/-- Behind a comment in the same parentheses no expression is found. -/
theorem receiver?_of_startsWithComment (isGroup : place.is .parenthesizedExpression = true)
    (leads : place.startsWithComment = true) : file.receiver? place = none := by
  obtain ⟨comment, head, isComment⟩ := Option.any_eq_true _ _ |>.mp leads
  rw [receiver?_of_group isGroup, head, Option.bind_some, receiver?_of_isComment isComment]

/-- Parentheses leave the scope of an expression as it is, if none of them starts with a comment,
and take it away otherwise. Induction on the parentheses. -/
theorem receiver?_of_parenthesizes (wf : WellFormed file.root) (held : file.root.Holds place)
    (layers : inner.Parenthesizes groups place) :
    file.receiver? place =
      if groups.any Place.startsWithComment then none else file.receiver? inner := by
  induction layers with
  | bare => rfl
  | @around groups part place within isGroup listed ih =>
    rw [List.any_cons]
    cases leads : place.startsWithComment with
    | true => rw [receiver?_of_startsWithComment isGroup leads, Bool.true_or, if_pos rfl]
    | false =>
      have first := Place.head?_constructs_of_group wf held isGroup listed leads
      rw [receiver?_of_group isGroup, first, Option.bind_some, ih (held.of_part listed),
        Bool.false_or]

/-! ## Uses -/

/-- All that is named after one receiver means what it means after another: a method in a call, a
field and a method that is referred to. A field access that is the dotted name of a type does not
count. -/
structure SameUses (file : SourceFile) (one other : Place) : Prop where
  call : ∀ call call' name name' : Place,
    call.child? .object = some one → call'.child? .object = some other →
    call.child? .name = some name → call'.child? .name = some name' → name.text = name'.text →
    call.argumentCount = call'.argumentCount → file.called? call = file.called? call'
  field : ∀ access access' field field' : Place,
    access.is .fieldAccess = true → access.child? .object = some one →
    access'.child? .object = some other → field.text = field'.text →
    file.accessNamed? access' = none →
    file.accessElement access field = file.accessElement access' field'
  reference : ∀ reference reference' name name' : Place,
    reference.constructs.head? = some one → reference'.constructs.head? = some other →
    name.text = name'.text →
    file.referenceElement reference name = file.referenceElement reference' name'

/-- What is named after an expression in parentheses means what it means after any expression of
the same scope. -/
theorem sameUses_of_group {bare : Place} (isGroup : place.is .parenthesizedExpression = true)
    (noType : bare.isAny [.typeIdentifier, .scopedTypeIdentifier, .genericType] = false)
    (same : file.receiver? place = file.receiver? bare) : file.SameUses place bare := by
  have looks := file.looksIn_of_isAny (Place.isAny_of_is isGroup (List.mem_singleton_self _))
    (by decide)
  constructor
  case call =>
    intro call call' name name' child child' named named' spelled counts
    rw [looks.call call name child named, same, spelled, counts]
    simp [called?, calledThrough?, child', named']
  case field =>
    intro access access' field field' isAccess child child' spelled unnamed
    rw [looks.field access field isAccess child, same, spelled, accessElement_eq, unnamed,
      accessedField?, child', Option.bind_some]
  case reference =>
    intro reference reference' name name' first first' spelled
    rw [looks.reference reference name first, same, spelled]
    simp [referenceElement, first', noType]

/-- An expression in any number of parentheses has the scope that it has by itself, exactly if no
comment stands right behind an opening parenthesis or there is no scope at all; behind such a
comment no scope is found. Whatever is named after the parentheses is looked up in their scope, so
without such comments it means what it means after the expression itself. -/
theorem receiver_in_parentheses (wf : WellFormed file.root) (held : file.root.Holds place)
    (layers : inner.Parenthesizes groups place) :
    (file.receiver? place = file.receiver? inner ↔
      (∀ group ∈ groups, group.startsWithComment = false) ∨ file.receiver? inner = none) ∧
    ((∃ group ∈ groups, group.startsWithComment = true) → file.receiver? place = none) ∧
    (groups ≠ [] → file.LooksIn place (file.receiver? place)) ∧
    (groups ≠ [] → (∀ group ∈ groups, group.startsWithComment = false) → ∀ bare : Place,
      bare.isAny [.typeIdentifier, .scopedTypeIdentifier, .genericType] = false →
      file.receiver? bare = file.receiver? inner → file.SameUses place bare) := by
  have means := receiver?_of_parenthesizes wf held layers
  have isGroup (filled : groups ≠ []) : place.is .parenthesizedExpression = true := by
    cases layers with
    | bare => contradiction
    | around within isGroup listed => exact isGroup
  have kept (plain : ∀ group ∈ groups, group.startsWithComment = false) :
      file.receiver? place = file.receiver? inner := by
    have none : groups.any Place.startsWithComment = false :=
      List.any_eq_false.mpr fun group listed => by simp [plain group listed]
    rw [means, none, if_neg Bool.false_ne_true]
  have lost (commented : ∃ group ∈ groups, group.startsWithComment = true) :
      file.receiver? place = none := by
    rw [means, List.any_eq_true.mpr commented, if_pos rfl]
  refine ⟨⟨fun same => ?_, fun either => ?_⟩, lost, fun filled => ?_,
    fun filled plain bare noType scope => ?_⟩
  · by_cases commented : ∃ group ∈ groups, group.startsWithComment = true
    · exact .inr (same ▸ lost commented)
    · refine .inl fun group listed => Bool.eq_false_iff.mpr fun leads => ?_
      exact commented ⟨group, listed, leads⟩
  · rcases either with plain | nothing
    · exact kept plain
    · rw [means, nothing, ite_self]
  · exact file.looksIn_of_isAny
      (Place.isAny_of_is (isGroup filled) (List.mem_singleton_self _)) (by decide)
  · exact sameUses_of_group (isGroup filled) noType ((kept plain).trans scope.symm)

/-- A receiver in two pairs of parentheses, with a comment behind it. -/
def commentBehind : String :=
  "class A { void m() { ((this /* c */)).m(); } }"

/-- The receiver is found through both pairs. -/
theorem receiver_in_two_pairs : accepts commentBehind = true ∧
    ∃ place group inner scope : Place, (parse commentBehind).Holds place ∧
      inner.Parenthesizes [place, group] place ∧ inner.is .thisWord = true ∧
      scope.declaredName? = some "A" ∧
      (ofRoot (parse commentBehind)).receiver? inner = some scope ∧
      (ofRoot (parse commentBehind)).receiver? place = some scope := by
  have used : (accepts commentBehind && ((parse commentBehind).places []).any fun place =>
      place.is .parenthesizedExpression && !place.startsWithComment &&
        place.parts.any fun group =>
          group.is .parenthesizedExpression && !group.startsWithComment &&
            group.parts.any fun inner => inner.is .thisWord &&
              ((ofRoot (parse commentBehind)).receiver? inner).any fun scope =>
                scope.declaredName? == some "A") = true := by decide +kernel
  obtain ⟨accepted, place, held, used⟩ := exists_held_of_search used
  simp only [Bool.and_eq_true, List.any_eq_true, Option.any_eq_true, Bool.not_eq_true',
    beq_iff_eq] at used
  obtain ⟨⟨isGroup, plain⟩, group, listed, ⟨isGroup', plain'⟩, inner, listed', isThis, scope,
    receives, isA⟩ := used
  have layers : inner.Parenthesizes [place, group] place :=
    .around (.around .bare isGroup' listed') isGroup listed
  have wf : WellFormed (ofRoot (parse commentBehind)).root := wellFormed_parse accepted
  have held' : (ofRoot (parse commentBehind)).root.Holds place := held
  have same := (receiver_in_parentheses wf held' layers).1.mpr (.inl (by simp [plain, plain']))
  exact ⟨accepted, place, group, inner, scope, held, layers, isThis, isA, receives,
    same.trans receives⟩

/-- A receiver in parentheses with a comment in front of it. -/
def commentInFront : String :=
  "class A { void m() { (/* c */ this).m(); } }"

/-- The receiver has a scope, but the parentheses have none, and the method is not found. -/
theorem receiver_behind_comment : accepts commentInFront = true ∧
    ∃ group inner scope name : Place, (parse commentInFront).Holds group ∧
      inner.Parenthesizes [group] group ∧ inner.is .thisWord = true ∧
      (ofRoot (parse commentInFront)).receiver? inner = some scope ∧
      (scope.method? name.text 0).isSome = true ∧
      (ofRoot (parse commentInFront)).receiver? group = none ∧
      (ofRoot (parse commentInFront)).Shows name .other := by
  have used : (accepts commentInFront && ((parse commentInFront).places []).any fun call =>
      (call.child? .object).any fun group => group.is .parenthesizedExpression &&
        ((ofRoot (parse commentInFront)).receiver? group).isNone &&
        (group.parts.any fun inner => inner.is .thisWord &&
          ((ofRoot (parse commentInFront)).receiver? inner).any fun scope =>
            (call.child? .name).any fun name => name.is .identifier &&
              (scope.method? name.text 0).isSome &&
              (ofRoot (parse commentInFront)).nameElement name == .other)) = true := by
    decide +kernel
  obtain ⟨accepted, call, held, used⟩ := exists_held_of_search used
  simp only [Bool.and_eq_true, List.any_eq_true, Option.any_eq_true, Option.isNone_iff_eq_none,
    beq_iff_eq] at used
  obtain ⟨group, child, ⟨isGroup, nothing⟩, inner, listed, isThis, scope, receives, name, named,
    ⟨isIdentifier, declared⟩, means⟩ := used
  have shown := (shows_name_iff (wellFormed_parse accepted) (held.of_child? named)
    (isName_of_identifier isIdentifier)).mpr means
  exact ⟨accepted, group, inner, scope, name, held.of_child? child, .around .bare isGroup listed,
    isThis, receives, declared, nothing, shown⟩

end SourceFile

end CaretName
