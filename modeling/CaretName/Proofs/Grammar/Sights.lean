import CaretName.Proofs.Grammar.Reads
import CaretName.Proofs.Grammar.Tokens
import Mathlib.Data.List.Forall2

/-!
# What the rules of a grammar read

The nodes that a rule derives are foreseen by the rule itself: `Rule.sights` lists how they look
from outside, each by its kind and its role, and `Rule.order` how they look one after another,
where the rule always reads as many. Both are computed from the grammar. `Reads.cover` and
`Reads.inOrder` say that derivations keep to them, comments aside, which may stand anywhere.
-/
namespace CaretName

/-! ## Sights -/

/-- What can be foreseen of the kind of a node. -/
inductive Look where
  /-- A keyword or a mark. -/
  | mark
  /-- The given construct. -/
  | construct (construct : Construct)
  /-- Nothing. -/
  | any
  deriving DecidableEq, Repr

/-- Whether a kind is as foreseen. -/
def Look.Fits : Look → Kind → Prop
  | .mark, kind => ∃ text, kind = .mark text
  | .construct what, kind => kind = .construct what
  | .any, _ => True

/-- What can be foreseen of a node that a rule reads: its kind and its role. -/
structure Sight where
  look : Look
  role : Option Role
  deriving DecidableEq, Repr

namespace Sight

/-- Whether a node is as foreseen. -/
def Fits (sight : Sight) (node : Node) : Prop := sight.look.Fits node.kind ∧ node.role = sight.role

/-- What is seen once nodes without a role have been put into one. -/
def inRole (role : Option Role) (sight : Sight) : Sight :=
  if sight.role.isSome then sight else { sight with role }

end Sight

/-- Several nodes are foreseen if each looks like one of the sights, but for comments, which
have no role. -/
def Sight.Cover (sights : List Sight) (nodes : List Node) : Prop :=
  ∀ node ∈ nodes, node.isExtra = true ∧ node.role = none ∨
    node.isExtra = false ∧ ∃ sight ∈ sights, sight.Fits node

/-- The nodes that are neither comments nor set aside by a repair. -/
def Node.essentials (nodes : List Node) : List Node := nodes.filter (!·.isExtra)

/-- Several nodes are foreseen one by one if each looks like one of the sights in its turn,
comments aside. -/
def Sight.InOrder (order : List (List Sight)) (nodes : List Node) : Prop :=
  List.Forall₂ (fun sights node => ∃ sight ∈ sights, sight.Fits node) order
    (Node.essentials nodes)

/-- Constructs that stand outside the grammar. -/
def Grammar.extraConstructs : List Construct := [.lineComment, .blockComment, .error]

/-- Whether a construct belongs to the grammar. -/
def Construct.isEssential (construct : Construct) : Bool :=
  !Grammar.extraConstructs.contains construct

/-- How the larger node of a growth looks. -/
def Growth.sight {ρ : Type} (growth : Growth ρ) : Sight := ⟨.construct growth.construct, none⟩

namespace Rule

variable {π : Type}

mutual

/-- How the nodes look that a rule reads. A named rule reads nodes without a role, of which
only `known` is foreseen. -/
def sights (known : π → List Look) : Rule π → List Sight
  | .text _ | .closing => [⟨.mark, none⟩]
  | .leaf construct _ | .name construct _ | .literal construct | .node construct _ =>
    [⟨.construct construct, none⟩]
  | .finish | .ahead _ => []
  | .part which => (known which).map (⟨·, none⟩)
  | .seq rules | .choice rules => sightsOfAll known rules
  | .many rule | .only _ rule => rule.sights known
  | .field role rule => (rule.sights known).map (Sight.inRole role)
  | .grow seed growths => seed.sights known ++ growths.map Growth.sight

/-- How the nodes look that several rules read. -/
def sightsOfAll (known : π → List Look) : List (Rule π) → List Sight
  | [] => []
  | rule :: rules => rule.sights known ++ sightsOfAll known rules

end

mutual

/-- Whether a rule is sure to read something besides comments. -/
def filled : Rule π → Bool
  | .text _ | .closing | .part _ => true
  | .leaf construct _ | .name construct _ | .literal construct => construct.isEssential
  | .finish | .ahead _ | .many _ => false
  | .seq rules => anyFilled rules
  | .choice rules => allFilled rules
  | .node construct rule => construct.isEssential && rule.filled
  | .field _ rule | .only _ rule => rule.filled
  | .grow seed growths => seed.filled && growths.all (·.construct.isEssential)

/-- Whether one of several rules is sure to read something. -/
def anyFilled : List (Rule π) → Bool
  | [] => false
  | rule :: rules => rule.filled || anyFilled rules

/-- Whether each of several rules is sure to read something. -/
def allFilled : List (Rule π) → Bool
  | [] => true
  | rule :: rules => rule.filled && allFilled rules

end

/-- The order of a single node with the given sights, if it is sure to be read. -/
def single (sure : Bool) (sights : List Sight) : Option (List (List Sight)) :=
  if sure then .some [sights] else none

/-- The order of what one of two rules reads, if both read as many nodes. -/
def eitherOrder (order other : List (List Sight)) : Option (List (List Sight)) :=
  if order.length == other.length then .some (List.zipWith (· ++ ·) order other) else none

mutual

/-- How the nodes look that a rule reads, one after another, if it always reads as many. -/
def order (known : π → List Look) : Rule π → Option (List (List Sight))
  | .text _ | .closing => .some [[⟨.mark, none⟩]]
  | .leaf construct _ | .name construct _ | .literal construct =>
    single construct.isEssential [⟨.construct construct, none⟩]
  | .node construct rule =>
    single (construct.isEssential && rule.filled) [⟨.construct construct, none⟩]
  | .finish | .ahead _ => .some []
  | .part which => .some [(known which).map (⟨·, none⟩)]
  | .seq rules => orderOfAll known rules
  | .choice rules => orderOfAny known rules
  | .many _ => none
  | .field role rule => (rule.order known).map (List.map (List.map (Sight.inRole role)))
  | .only _ rule => rule.order known
  | .grow seed growths =>
    (seed.order known).bind fun order =>
      single (order.length == 1 && growths.all (·.construct.isEssential))
        (seed.sights known ++ growths.map Growth.sight)

/-- How the nodes look that several rules read in turn. -/
def orderOfAll (known : π → List Look) : List (Rule π) → Option (List (List Sight))
  | [] => .some []
  | rule :: rules => (rule.order known).bind fun first =>
    (orderOfAll known rules).map (first ++ ·)

/-- How the nodes look that one of several rules reads. -/
def orderOfAny (known : π → List Look) : List (Rule π) → Option (List (List Sight))
  | [] => none
  | [rule] => rule.order known
  | rule :: rules => (rule.order known).bind fun order =>
    (orderOfAny known rules).bind (eitherOrder order)

end

/-- How several rules look is how each of them looks. -/
theorem mem_sightsOfAll {known : π → List Look} {rules : List (Rule π)} {sight : Sight} :
    sight ∈ sightsOfAll known rules ↔ ∃ rule ∈ rules, sight ∈ rule.sights known := by
  induction rules with
  | nil => simp [sightsOfAll]
  | cons rule rules ih => simp [sightsOfAll, ih]

/-- One of several rules reads something if each does. -/
theorem filled_of_allFilled {rules : List (Rule π)} {rule : Rule π} (chosen : rule ∈ rules)
    (all : allFilled rules = true) : rule.filled = true := by
  induction rules with
  | nil => simp at chosen
  | cons first rules ih =>
    simp only [allFilled, Bool.and_eq_true] at all
    rcases List.mem_cons.mp chosen with rfl | later
    · exact all.1
    · exact ih later all.2

/-- Nodes in the order of either rule. -/
theorem inOrder_of_eitherOrder {order other either : List (List Sight)} {nodes : List Node}
    (same : eitherOrder order other = .some either)
    (matched : Sight.InOrder order nodes ∨ Sight.InOrder other nodes) :
    Sight.InOrder either nodes := by
  unfold eitherOrder at same
  split at same
  case isFalse => contradiction
  next lengths =>
    replace lengths : order.length = other.length := eq_of_beq lengths
    obtain rfl := Option.some.inj same
    clear same
    unfold Sight.InOrder at matched ⊢
    generalize Node.essentials nodes = nodes at matched ⊢
    induction order generalizing other nodes with
    | nil =>
      obtain rfl : other = [] := List.length_eq_zero_iff.mp lengths.symm
      simpa using matched
    | cons sights order ih =>
      cases other with
      | nil => simp at lengths
      | cons others other =>
        cases nodes with
        | nil => simp at matched
        | cons node nodes =>
          simp only [List.forall₂_cons, List.zipWith_cons_cons, List.mem_append] at matched ⊢
          have lengths : order.length = other.length := by simpa using lengths
          rcases matched with ⟨⟨sight, listed, fits⟩, later⟩ | ⟨⟨sight, listed, fits⟩, later⟩
          · exact ⟨⟨sight, .inl listed, fits⟩, ih lengths nodes (.inl later)⟩
          · exact ⟨⟨sight, .inr listed, fits⟩, ih lengths nodes (.inr later)⟩

/-- Nodes in the order of one of several rules. -/
theorem inOrder_of_orderOfAny {known : π → List Look} {rules : List (Rule π)} {rule : Rule π}
    {order : List (List Sight)} {nodes : List Node} (chosen : rule ∈ rules)
    (same : orderOfAny known rules = .some order)
    (matched : ∀ own, rule.order known = .some own → Sight.InOrder own nodes) :
    Sight.InOrder order nodes := by
  induction rules generalizing order with
  | nil => simp at chosen
  | cons first rules ih =>
    cases rules with
    | nil =>
      obtain rfl := List.mem_singleton.mp chosen
      exact matched order same
    | cons second rules =>
      rw [orderOfAny] at same
      · obtain ⟨own, itself, same⟩ := Option.bind_eq_some_iff.mp same
        obtain ⟨others, later, same⟩ := Option.bind_eq_some_iff.mp same
        refine inOrder_of_eitherOrder same ?_
        rcases List.mem_cons.mp chosen with rfl | chosen
        · exact .inl (matched own itself)
        · exact .inr (ih chosen later)
      · simp

end Rule

/-! ## How many nodes a rule reads -/

namespace Rule

variable {π : Type} (known known' : π → List Look)

/-- What is built from two orders of one length is of one length if each step keeps to it. -/
theorem length_bind {one other : Option (List (List Sight))}
    {step step' : List (List Sight) → Option (List (List Sight))}
    (same : one.map List.length = other.map List.length)
    (steps : ∀ order order' : List (List Sight), order.length = order'.length →
      (step order).map List.length = (step' order').map List.length) :
    (one.bind step).map List.length = (other.bind step').map List.length := by
  cases one with
  | none =>
    cases other with
    | none => rfl
    | some order' => simp at same
  | some order =>
    cases other with
    | none => simp at same
    | some order' => exact steps order order' (by simpa using same)

mutual

/-- How many nodes a rule reads does not depend on what is known of the named rules. -/
theorem length_order : ∀ rule : Rule π,
    (rule.order known).map List.length = (rule.order known').map List.length
  | .text _ | .closing | .finish | .ahead _ | .part _ | .many _ => rfl
  | .leaf construct _ | .name construct _ | .literal construct => rfl
  | .node construct rule => rfl
  | .seq rules => length_orderOfAll rules
  | .choice rules => length_orderOfAny rules
  | .field role rule => by
    have ih := length_order rule
    simpa only [order, Option.map_map, Function.comp_def, List.length_map] using ih
  | .only _ rule => length_order rule
  | .grow seed growths => by
    refine length_bind (length_order seed) fun order order' same => ?_
    rw [same]
    unfold single
    split <;> rfl

/-- The same for rules one after another. -/
theorem length_orderOfAll : ∀ rules : List (Rule π),
    (orderOfAll known rules).map List.length = (orderOfAll known' rules).map List.length
  | [] => rfl
  | rule :: rules => by
    refine length_bind (length_order rule) fun order order' same => ?_
    have later := length_orderOfAll rules
    simp only [Option.map_map, Function.comp_def, List.length_append, same]
    simpa only [Option.map_map, Function.comp_def] using
      congrArg (Option.map (order'.length + ·)) later

/-- The same for a choice of rules. -/
theorem length_orderOfAny : ∀ rules : List (Rule π),
    (orderOfAny known rules).map List.length = (orderOfAny known' rules).map List.length
  | [] => rfl
  | [rule] => length_order rule
  | rule :: other :: rules => by
    refine length_bind (length_order rule) fun order order' same => ?_
    refine length_bind (length_orderOfAny (other :: rules)) fun more more' same' => ?_
    unfold eitherOrder
    rw [same, same']
    split <;> simp [same, same']

end

end Rule

/-! ## Nodes in another role -/

namespace Node

variable (role : Option Role) (node : Node)

/-- A role does not change the kind. -/
@[simp] theorem kind_withRole : (node.withRole role).kind = node.kind := by cases node <;> rfl

/-- A role does not change the children. -/
@[simp] theorem children_withRole : (node.withRole role).children = node.children := by
  cases node <;> rfl

/-- A role does not change the bytes. -/
@[simp] theorem span_withRole : (node.withRole role).span = node.span := by cases node <;> rfl

/-- The role is the one given. -/
@[simp] theorem role_withRole : (node.withRole role).role = role := by cases node <;> rfl

/-- A role does not change the text. -/
@[simp] theorem text_withRole : (node.withRole role).text = node.text := by
  cases node with
  | leaf => rfl
  | branch _ _ _ children => cases children <;> rfl

/-- A role does not change the first byte. -/
@[simp] theorem start_withRole : (node.withRole role).start = node.start := by simp [start]

/-- A role does not change the last byte. -/
@[simp] theorem stop_withRole : (node.withRole role).stop = node.stop := by simp [stop]

/-- A role does not make a comment. -/
@[simp] theorem isComment_withRole : (node.withRole role).isComment = node.isComment := by
  simp [isComment, isAny, is]

/-- A role does not make a comment or an error. -/
@[simp] theorem isExtra_withRole : (node.withRole role).isExtra = node.isExtra := by
  simp [isExtra, is]

end Node

variable {π : Type} {grammar : π → Rule π} {known : π → List Look}

/-- Nodes put into a role are the same nodes, some in another role. -/
theorem exists_of_mem_inRole {role : Role} {nodes : List Node} {node : Node}
    (found : node ∈ inRole role nodes) : ∃ before ∈ nodes,
      (before.isExtra = true ∨ before.role.isSome) ∧ node = before ∨
      before.isExtra = false ∧ before.role = none ∧ node = before.withRole (some role) := by
  obtain ⟨before, inside, rfl⟩ := List.mem_map.mp found
  refine ⟨before, inside, ?_⟩
  split
  · next kept => exact .inl ⟨by simpa using kept, rfl⟩
  · next changed => exact .inr (by simpa using changed)


/-! ## Enclosed nodes -/

/-- Nodes that are no extras are not left outside. -/
theorem mem_dropWhile_of_not_extra {nodes : List Node} {node : Node} (inside : node ∈ nodes)
    (meant : node.isExtra = false) : node ∈ nodes.dropWhile Node.isExtra := by
  rw [← List.takeWhile_append_dropWhile (p := Node.isExtra) (l := nodes), List.mem_append] at inside
  rcases inside with front | back
  · rw [List.mem_takeWhile_imp front] at meant
    contradiction
  · exact back

/-- Nodes are enclosed from the first that is no extra, if there is one. -/
theorem enclose_eq (construct : Construct) (nodes : List Node) :
    (nodes.dropWhile Node.isExtra = [] ∧
      enclose construct nodes = nodes.takeWhile Node.isExtra) ∨
    ∃ first last, (nodes.dropWhile Node.isExtra).head? = some first ∧
      (nodes.dropWhile Node.isExtra).getLast? = some last ∧
      enclose construct nodes = nodes.takeWhile Node.isExtra ++
        [.branch (.construct construct) none ⟨first.start, last.stop⟩
          (nodes.dropWhile Node.isExtra)] := by
  unfold enclose
  cases inside : nodes.dropWhile Node.isExtra with
  | nil => exact .inl ⟨rfl, rfl⟩
  | cons first rest =>
    refine .inr ⟨first, (first :: rest).getLast (by simp), rfl, List.getLast?_eq_some_getLast _, ?_⟩
    simp [List.getLast?_eq_some_getLast]

/-! ## Nodes that grow -/

namespace Growth

variable {ρ : Type} (growth : Growth ρ) (nodes tail : List Node)

/-- A node that grows, in its role in the larger one. -/
def base : List Node :=
  match growth.role with
  | some role => inRole role nodes
  | none => nodes

/-- The larger node encloses the one that grows and what follows. -/
theorem apply_eq : growth.apply nodes tail =
    enclose growth.construct (growth.base nodes ++ tail) := rfl

end Growth

/-! ## Essential nodes -/

namespace Node

variable {nodes others : List Node} {node : Node}

/-- The essential nodes are those that are no extras. -/
theorem mem_essentials : node ∈ essentials nodes ↔ node ∈ nodes ∧ node.isExtra = false := by
  simp [essentials]

/-- The essential nodes of two lists are those of each. -/
theorem essentials_append : essentials (nodes ++ others) = essentials nodes ++ essentials others :=
  List.filter_append ..

/-- Comments in front are not essential. -/
theorem essentials_dropWhile : essentials (nodes.dropWhile isExtra) = essentials nodes := by
  induction nodes with
  | nil => rfl
  | cons node nodes ih =>
    cases extra : node.isExtra with
    | true =>
      rw [List.dropWhile_cons_of_pos extra, ih]
      simp [essentials, extra]
    | false => rw [List.dropWhile_cons_of_neg (by simp [extra])]

/-- The first node after the comments in front is the first that is essential. -/
theorem head?_dropWhile : (nodes.dropWhile isExtra).head? = (essentials nodes).head? := by
  rw [essentials, List.head?_filter, List.find?_not_eq_head?_dropWhile]

/-- A role does not make a node essential. -/
theorem essentials_inRole (role : Role) :
    essentials (inRole role nodes) = inRole role (essentials nodes) := by
  have kept : ∀ node : Node, (if node.isExtra || node.role.isSome then node
      else node.withRole (some role)).isExtra = node.isExtra := by
    intro node
    split
    · rfl
    · exact isExtra_withRole ..
  unfold essentials inRole
  rw [List.filter_map]
  congr 2
  funext node
  rw [Function.comp_apply, kept]

/-- A node of the grammar is essential. -/
theorem isExtra_eq_false {construct : Construct} (kind : node.kind = .construct construct)
    (essential : construct.isEssential = true) : node.isExtra = false := by
  simp only [Construct.isEssential, Grammar.extraConstructs, List.contains_eq_mem, List.mem_cons,
    List.not_mem_nil, or_false, Bool.not_eq_true', decide_eq_false_iff_not, not_or] at essential
  simp [isExtra, isComment, isAny, is, kind, essential]

/-- What encloses essential nodes is a single essential node. -/
theorem essentials_enclose {construct : Construct} (essential : construct.isEssential = true)
    (some : essentials nodes ≠ []) : ∃ span, essentials (enclose construct nodes) =
      [.branch (.construct construct) none span (nodes.dropWhile isExtra)] := by
  have outside : essentials (nodes.takeWhile isExtra) = [] := by
    refine List.filter_eq_nil_iff.mpr fun node inside => ?_
    simp [List.mem_takeWhile_imp inside]
  rcases enclose_eq construct nodes with ⟨empty, _⟩ | ⟨first, last, _, _, equal⟩
  · rw [← essentials_dropWhile, empty] at some
    contradiction
  · refine ⟨⟨first.start, last.stop⟩, ?_⟩
    have meant : (branch (.construct construct) none ⟨first.start, last.stop⟩
        (nodes.dropWhile isExtra)).isExtra = false := isExtra_eq_false rfl essential
    rw [equal, essentials_append, outside]
    simp [essentials, meant]

/-- What a growth makes of essential nodes is a single essential node. -/
theorem length_essentials_apply {ρ : Type} {growth : Growth ρ} {tail : List Node}
    (essential : growth.construct.isEssential = true) (some : essentials nodes ≠ []) :
    (essentials (growth.apply nodes tail)).length = 1 := by
  have base : essentials (growth.base nodes) ≠ [] := by
    unfold Growth.base
    split
    · rw [essentials_inRole, inRole, Ne, List.map_eq_nil_iff]
      exact some
    · exact some
  have more : essentials (growth.base nodes ++ tail) ≠ [] := by
    rw [essentials_append]
    exact List.append_ne_nil_of_left_ne_nil base _
  obtain ⟨span, single⟩ := essentials_enclose essential more
  rw [Growth.apply_eq, single]
  rfl

end Node

/-! ## What a derivation yields -/

/-- A comment between tokens may stand anywhere and has no role. -/
theorem Node.BareComment.extra {node : Node} (comment : node.BareComment) :
    node.isExtra = true ∧ node.role = none :=
  ⟨by simp [isExtra, comment.isComment], comment.roleless⟩

namespace Token

variable {token : Token} {kind : Kind}

/-- The leaf of a token is essential if its construct is. -/
theorem isExtra_leaf {construct : Construct} (essential : construct.isEssential = true) :
    (token.leaf (.construct construct)).isExtra = false := Node.isExtra_eq_false rfl essential

/-- The nodes of a token end in its leaf. -/
theorem essentials_nodes_ne_nil (meant : (token.leaf kind).isExtra = false) :
    Node.essentials (token.nodes kind) ≠ [] := by
  have inside : token.leaf kind ∈ Node.essentials (token.nodes kind) :=
    Node.mem_essentials.mpr ⟨List.mem_append_right _ (List.mem_singleton_self _), meant⟩
  exact List.ne_nil_of_mem inside

/-- The only essential node of a token is its leaf. -/
theorem Sound.essentials_nodes (sound : token.Sound) (meant : (token.leaf kind).isExtra = false) :
    Node.essentials (token.nodes kind) = [token.leaf kind] := by
  have before : Node.essentials token.before = [] := by
    refine List.filter_eq_nil_iff.mpr fun node inside => ?_
    simp [(sound.comments node inside).extra.1]
  rw [Token.nodes, Node.essentials_append, before]
  simp [Node.essentials, meant]

end Token

/-- A node without a role that looks like a sight is covered, whether it is a comment or not. -/
theorem Sight.covers_of_roleless {sights : List Sight} {sight : Sight} {node : Node}
    (free : node.role = none) (listed : sight ∈ sights) (fits : sight.Fits node) :
    node.isExtra = true ∧ node.role = none ∨
      node.isExtra = false ∧ ∃ sight ∈ sights, sight.Fits node := by
  cases extra : node.isExtra with
  | true => exact .inl ⟨rfl, free⟩
  | false => exact .inr ⟨rfl, sight, listed, fits⟩

/-- The nodes of a token are its comments, and its leaf, which looks as its kind does. -/
theorem Token.Sound.cover {token : Token} (sound : token.Sound) {look : Look} {kind : Kind}
    (fits : look.Fits kind) : Sight.Cover [⟨look, none⟩] (token.nodes kind) := by
  intro node inside
  rcases List.mem_append.mp inside with before | itself
  · exact .inl (sound.comments node before).extra
  · obtain rfl := List.mem_singleton.mp itself
    exact Sight.covers_of_roleless rfl (List.mem_singleton_self _) ⟨fits, rfl⟩

/-- A node that is put into a role looks as is foreseen there. -/
theorem Sight.Fits.inRole {sight : Sight} {node : Node} (fits : sight.Fits node)
    (meant : node.isExtra = false) (role : Role) : (sight.inRole role).Fits
      (if node.isExtra || node.role.isSome then node else node.withRole (some role)) := by
  rw [meant, Bool.false_or, Sight.inRole, ← fits.2]
  by_cases roled : node.role.isSome = true
  · rw [if_pos roled, if_pos roled]
    exact fits
  · rw [if_neg roled, if_neg roled]
    exact ⟨by simpa using fits.1, by simp⟩

namespace Sight.Cover

variable {sights more : List Sight} {nodes others : List Node}

/-- More sights cover as well. -/
theorem mono (cover : Cover sights nodes) (fewer : ∀ sight ∈ sights, sight ∈ more) :
    Cover more nodes := by
  intro node inside
  rcases cover node inside with extra | ⟨meant, sight, listed, fits⟩
  · exact .inl extra
  · exact .inr ⟨meant, sight, fewer sight listed, fits⟩

/-- Nodes one after another are covered by the sights of both. -/
theorem append (first : Cover sights nodes) (second : Cover sights others) :
    Cover sights (nodes ++ others) := by
  intro node inside
  exact (List.mem_append.mp inside).elim (first node) (second node)

/-- Nodes put into a role are covered by the sights put into it. -/
theorem inRole (cover : Cover sights nodes) (role : Role) :
    Cover (sights.map (Sight.inRole role)) (CaretName.inRole role nodes) := by
  intro node inside
  obtain ⟨before, found, rfl⟩ := List.mem_map.mp inside
  rcases cover before found with ⟨extra, free⟩ | ⟨meant, sight, listed, fits⟩
  · rw [extra, Bool.true_or, if_pos rfl]
    exact .inl ⟨extra, free⟩
  · refine .inr ⟨?_, _, List.mem_map_of_mem listed, fits.inRole meant role⟩
    split
    · exact meant
    · rw [Node.isExtra_withRole]
      exact meant

/-- A construct around nodes looks like the construct. -/
theorem enclose (cover : Cover sights nodes) (construct : Construct) :
    Cover [⟨.construct construct, none⟩] (CaretName.enclose construct nodes) := by
  have outside : ∀ node ∈ nodes.takeWhile Node.isExtra,
      node.isExtra = true ∧ node.role = none := by
    intro node inside
    have extra := List.mem_takeWhile_imp inside
    rcases cover node (List.takeWhile_subset _ inside) with bare | ⟨meant, _⟩
    · exact bare
    · rw [extra] at meant
      contradiction
  intro node inside
  rcases enclose_eq construct nodes with ⟨_, equal⟩ | ⟨first, last, _, _, equal⟩
  · exact .inl (outside node (equal ▸ inside))
  · rcases List.mem_append.mp (equal ▸ inside) with before | itself
    · exact .inl (outside node before)
    · obtain rfl := List.mem_singleton.mp itself
      exact covers_of_roleless rfl (List.mem_singleton_self _) ⟨rfl, rfl⟩

end Sight.Cover

/-- Without a role for it a node that grows looks as before. -/
theorem Sight.map_inRole_none (sights : List Sight) :
    sights.map (Sight.inRole none) = sights :=
  List.map_id'' (fun ⟨_, role⟩ => by cases role <;> rfl) _

/-- A node that grows looks in the larger one as foreseen there. -/
theorem Sight.Cover.base {ρ : Type} {sights : List Sight} {nodes : List Node}
    (cover : Cover sights nodes) (growth : Growth ρ) :
    Cover (sights.map (Sight.inRole growth.role)) (growth.base nodes) := by
  unfold Growth.base
  cases growth.role with
  | some role => exact cover.inRole role
  | none => rwa [map_inRole_none]

/-- Nodes that are covered are in the order of a single one if only one is essential. -/
theorem Sight.Cover.inOrder {sights : List Sight} {nodes : List Node} (cover : Cover sights nodes)
    (one : (Node.essentials nodes).length = 1) : InOrder [sights] nodes := by
  obtain ⟨node, single⟩ := List.length_eq_one_iff.mp one
  have inside : node ∈ Node.essentials nodes := by simp [single]
  obtain ⟨listed, meant⟩ := Node.mem_essentials.mp inside
  rw [InOrder, single, List.forall₂_cons]
  refine ⟨?_, .nil⟩
  rcases cover node listed with ⟨extra, _⟩ | ⟨_, fits⟩
  · rw [meant] at extra
    contradiction
  · exact fits

/-- The nodes of a token are in the order of its leaf. -/
theorem Token.Sound.inOrder {token : Token} (sound : token.Sound) {look : Look} {kind : Kind}
    (fits : look.Fits kind) (meant : (token.leaf kind).isExtra = false) :
    Sight.InOrder [[⟨look, none⟩]] (token.nodes kind) := by
  refine (sound.cover fits).inOrder ?_
  rw [sound.essentials_nodes meant]
  rfl

namespace Sight.InOrder

variable {order others : List (List Sight)} {nodes more : List Node}

/-- Nodes one after another are in the one order after the other. -/
theorem append (first : InOrder order nodes) (second : InOrder others more) :
    InOrder (order ++ others) (nodes ++ more) := by
  rw [InOrder, Node.essentials_append]
  exact List.rel_append first second

/-- Nodes put into a role are in the order put into it. -/
theorem inRole (matched : InOrder order nodes) (role : Role) :
    InOrder (order.map (List.map (Sight.inRole role))) (CaretName.inRole role nodes) := by
  rw [InOrder, Node.essentials_inRole, CaretName.inRole, List.forall₂_map_left_iff,
    List.forall₂_map_right_iff]
  have meant : ∀ node ∈ Node.essentials nodes, node.isExtra = false :=
    fun node inside => (Node.mem_essentials.mp inside).2
  unfold InOrder at matched
  generalize Node.essentials nodes = nodes at matched meant
  induction matched with
  | nil => exact .nil
  | cons fits later ih =>
    obtain ⟨here, others⟩ := List.forall_mem_cons.mp meant
    obtain ⟨sight, listed, fits⟩ := fits
    exact .cons ⟨_, List.mem_map_of_mem listed, fits.inRole here role⟩ (ih others)

/-- A node that grows is in the order that is put into its role in the larger one. -/
theorem base {ρ : Type} (matched : InOrder order nodes) (growth : Growth ρ) :
    InOrder (order.map (List.map (Sight.inRole growth.role))) (growth.base nodes) := by
  unfold Growth.base
  cases growth.role with
  | some role => exact matched.inRole role
  | none =>
    have same : order.map (List.map (Sight.inRole none)) = order :=
      List.map_id'' (fun sights => Sight.map_inRole_none sights) _
    rwa [same]

end Sight.InOrder

/-- What is known of the named rules of a grammar is true: each reads one node without a role
that looks as foreseen. -/
structure Rule.Knows (grammar : π → Rule π) (known : π → List Look) : Prop where
  sights : ∀ which, ∀ sight ∈ (grammar which).sights known,
    sight.role = none ∧ (.any ∈ known which ∨ sight.look ∈ known which)
  filled : ∀ which, (grammar which).filled = true
  single : ∀ which, ∃ sights, (grammar which).order known = Option.some [sights]

namespace Rule.Reads

variable {rule : Rule π} {tokens rest : List Token} {nodes : List Node}

/-- What holds of all tokens holds of those left, if it holds of the pieces of a mark that is taken
apart. -/
theorem all_rest {holds : Token → Prop} (reads : Reads grammar rule tokens nodes rest)
    (parts : ∀ ⦃token bracket left⦄, holds token →
      token.splitClosing? = Option.some (bracket, left) → ∀ token ∈ left, holds token)
    (all : ∀ token ∈ tokens, holds token) : ∀ token ∈ rest, holds token := by
  induction reads with
  | text | leaf | name | literal => exact (List.forall_mem_cons.mp all).2
  | closing split =>
    obtain ⟨first, others⟩ := List.forall_mem_cons.mp all
    exact List.forall_mem_append.mpr ⟨parts first split, others⟩
  | finish => exact List.forall_mem_singleton.mpr (List.forall_mem_cons.mp all).1
  | seqNil | manyNil | ahead => exact all
  | part body ih | node body ih | field body ih | seed body ih => exact ih all
  | choice chosen body ih | only body leading ih => exact ih all
  | seqCons first later ihFirst ihLater | manyCons first later ihFirst ihLater =>
    exact ihLater (ihFirst all)
  | growth base applies leading onto later ihBase ihLater => exact ihLater (ihBase all)

/-- The tokens left are sound if those read were. -/
theorem sound_rest (reads : Reads grammar rule tokens nodes rest)
    (sound : ∀ token ∈ tokens, token.Sound) : ∀ token ∈ rest, token.Sound :=
  reads.all_rest (fun _ _ _ own split => (own.of_splitClosing? split).2) sound

/-- The nodes of a derivation look as its rule foresees. -/
theorem cover (knows : Knows grammar known) (reads : Reads grammar rule tokens nodes rest)
    (sound : ∀ token ∈ tokens, token.Sound) : Sight.Cover (rule.sights known) nodes := by
  induction reads with
  | text => exact (sound _ List.mem_cons_self).cover ⟨_, rfl⟩
  | leaf | name | literal => exact (sound _ List.mem_cons_self).cover rfl
  | closing split =>
    exact ((sound _ List.mem_cons_self).of_splitClosing? split).1.cover ⟨_, rfl⟩
  | finish =>
    intro node inside
    exact .inl ((sound _ List.mem_cons_self).comments node inside).extra
  | seqNil | manyNil | ahead => simp [Sight.Cover]
  | @part which tokens rest nodes body ih =>
    intro node inside
    rcases ih sound node inside with extra | ⟨meant, sight, listed, look, role⟩
    · exact .inl extra
    · obtain ⟨free, unknown | looks⟩ := knows.sights which sight listed
      · exact .inr ⟨meant, _, List.mem_map_of_mem unknown, trivial, role.trans free⟩
      · exact .inr ⟨meant, _, List.mem_map_of_mem looks, look, role.trans free⟩
  | seqCons first later ihFirst ihLater =>
    refine .append ((ihFirst sound).mono ?_) ((ihLater (first.sound_rest sound)).mono ?_) <;>
      simp +contextual [sights, sightsOfAll]
  | choice chosen body ih =>
    exact (ih sound).mono fun sight listed => mem_sightsOfAll.mpr ⟨_, chosen, listed⟩
  | manyCons first later ihFirst ihLater =>
    exact (ihFirst sound).append (ihLater (first.sound_rest sound))
  | node body ih => exact (ih sound).enclose _
  | field body ih => exact (ih sound).inRole _
  | only body leading ih => exact ih sound
  | seed body ih => exact (ih sound).mono fun sight => List.mem_append_left _
  | @growth seed growths growth _ _ _ _ nodes tail base applies leading onto later ihBase ihLater =>
    have joined := (((ihBase sound).base growth).mono fun _ => List.mem_append_left
      (growth.tail.sights known)).append
        ((ihLater (base.sound_rest sound)).mono fun _ => List.mem_append_right _)
    refine (joined.enclose growth.construct).mono fun sight itself => ?_
    obtain rfl := List.mem_singleton.mp itself
    exact List.mem_append_right _ (List.mem_map_of_mem applies)

/-- A rule that is sure to read something does. -/
theorem filled (knows : Knows grammar known) (reads : Reads grammar rule tokens nodes rest)
    (sure : rule.filled = true) : Node.essentials nodes ≠ [] := by
  induction reads with
  | text spells => exact Token.essentials_nodes_ne_nil rfl
  | closing split => exact Token.essentials_nodes_ne_nil rfl
  | leaf spells => exact Token.essentials_nodes_ne_nil (Token.isExtra_leaf sure)
  | name named => exact Token.essentials_nodes_ne_nil (Token.isExtra_leaf sure)
  | literal sort => exact Token.essentials_nodes_ne_nil (Token.isExtra_leaf sure)
  | finish | seqNil | manyNil | manyCons | ahead => contradiction
  | part body ih => exact ih (knows.filled _)
  | @seqCons rule rules _ _ _ nodes more first later ihFirst ihLater =>
    rw [Node.essentials_append]
    intro empty
    obtain ⟨front, back⟩ := List.append_eq_nil_iff.mp empty
    rcases Bool.or_eq_true_iff.mp sure with sure | sure
    · exact ihFirst sure front
    · exact ihLater sure back
  | choice chosen body ih => exact ih (filled_of_allFilled chosen sure)
  | node body ih =>
    obtain ⟨essential, sure⟩ := Bool.and_eq_true_iff.mp sure
    obtain ⟨span, single⟩ := Node.essentials_enclose essential (ih sure)
    simp [single]
  | field body ih =>
    rw [Node.essentials_inRole, CaretName.inRole, Ne, List.map_eq_nil_iff]
    exact ih sure
  | only body leading ih => exact ih sure
  | seed body ih => exact ih (Bool.and_eq_true_iff.mp sure).1
  | growth base applies leading onto later ihBase ihLater =>
    have essential := List.all_eq_true.mp (Bool.and_eq_true_iff.mp sure).2 _ applies
    exact List.ne_nil_of_length_eq_add_one (Node.length_essentials_apply essential (ihBase sure))

/-- The nodes of a derivation look as its rule foresees, one after another. -/
theorem inOrder (knows : Knows grammar known) (reads : Reads grammar rule tokens nodes rest)
    (sound : ∀ token ∈ tokens, token.Sound) :
    ∀ order, rule.order known = Option.some order → Sight.InOrder order nodes := by
  have sure {sure : Bool} {sights : List Sight} {order : List (List Sight)}
      (same : Rule.single sure sights = Option.some order) : sure = true ∧ order = [sights] := by
    unfold Rule.single at same
    split at same
    · exact ⟨‹_›, (Option.some.inj same).symm⟩
    · contradiction
  induction reads with
  | text spells =>
    rintro _ ⟨⟩
    exact (sound _ List.mem_cons_self).inOrder ⟨_, rfl⟩ rfl
  | closing split =>
    rintro _ ⟨⟩
    exact ((sound _ List.mem_cons_self).of_splitClosing? split).1.inOrder ⟨_, rfl⟩ rfl
  | leaf spells =>
    intro order same
    obtain ⟨essential, rfl⟩ := sure same
    exact (sound _ List.mem_cons_self).inOrder rfl (Token.isExtra_leaf essential)
  | name named =>
    intro order same
    obtain ⟨essential, rfl⟩ := sure same
    exact (sound _ List.mem_cons_self).inOrder rfl (Token.isExtra_leaf essential)
  | literal sort =>
    intro order same
    obtain ⟨essential, rfl⟩ := sure same
    exact (sound _ List.mem_cons_self).inOrder rfl (Token.isExtra_leaf essential)
  | @finish token _ sort =>
    rintro _ ⟨⟩
    have none : Node.essentials token.before = [] := by
      refine List.filter_eq_nil_iff.mpr fun node inside => ?_
      simp [((sound _ List.mem_cons_self).comments node inside).extra.1]
    rw [Sight.InOrder, none]
    exact .nil
  | seqNil | ahead =>
    rintro _ ⟨⟩
    exact .nil
  | manyNil | manyCons =>
    rintro _ ⟨⟩
  | @part which _ _ nodes body ih =>
    rintro _ ⟨⟩
    obtain ⟨sights, single⟩ := knows.single which
    refine ((Reads.part body).cover knows sound).inOrder ?_
    exact (ih sound _ single).length_eq.symm
  | seqCons first later ihFirst ihLater =>
    intro order same
    obtain ⟨front, itself, same⟩ := Option.bind_eq_some_iff.mp same
    obtain ⟨back, others, rfl⟩ := Option.map_eq_some_iff.mp same
    exact (ihFirst sound front itself).append (ihLater (first.sound_rest sound) back others)
  | choice chosen body ih =>
    intro order same
    exact inOrder_of_orderOfAny chosen same (ih sound)
  | node body ih =>
    intro order same
    obtain ⟨both, rfl⟩ := sure same
    obtain ⟨essential, filled⟩ := Bool.and_eq_true_iff.mp both
    obtain ⟨span, single⟩ := Node.essentials_enclose essential (body.filled knows filled)
    refine ((Reads.node body).cover knows sound).inOrder ?_
    rw [single]
    rfl
  | field body ih =>
    intro order same
    obtain ⟨inner, itself, rfl⟩ := Option.map_eq_some_iff.mp same
    exact (ih sound inner itself).inRole _
  | only body leading ih => exact ih sound
  | seed body ih =>
    intro order same
    obtain ⟨inner, itself, same⟩ := Option.bind_eq_some_iff.mp same
    obtain ⟨both, rfl⟩ := sure same
    have one : inner.length = 1 := eq_of_beq (Bool.and_eq_true_iff.mp both).1
    refine ((Reads.seed body).cover knows sound).inOrder ?_
    rw [← one]
    exact (ih sound inner itself).length_eq.symm
  | growth base applies leading onto later ihBase ihLater =>
    intro order same
    have single := ihBase sound order same
    obtain ⟨inner, itself, same⟩ := Option.bind_eq_some_iff.mp same
    obtain ⟨both, rfl⟩ := sure same
    have essential := List.all_eq_true.mp (Bool.and_eq_true_iff.mp both).2 _ applies
    refine ((Reads.growth base applies leading onto later).cover knows sound).inOrder ?_
    refine Node.length_essentials_apply essential ?_
    exact List.ne_nil_of_length_eq_add_one single.length_eq.symm

end Rule.Reads

end CaretName
