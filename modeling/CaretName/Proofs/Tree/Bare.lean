import Mathlib.Data.List.Nodup
import CaretName.Proofs.Tree.Leaves
import CaretName.Proofs.Tree.Plain

/-!
# Trees without comments

`Node.bare` takes the comments out of a tree, and the offsets with them. Each comment leaves a space
behind: the white space in front of a token is what stood in front of it and of the comments before
it, with a space for each of these. So the bare tree is what another source is read as, in which the
comments are spaces.

What is found in a tree by kinds, roles and order is found in the bare tree as well, at the places
that `Place.bare` says. Comments must have neither children nor a role for this (`Node.Remarked`).
-/
namespace CaretName

namespace Piece

/-- Pieces with more white space in front of the first one. -/
def behind (before : String) : List Piece → List Piece
  | [] => []
  | piece :: rest => ⟨before ++ piece.gap, piece.text⟩ :: rest

/-- Nothing is put in front. -/
theorem behind_empty (pieces : List Piece) : behind "" pieces = pieces := by
  cases pieces with
  | nil => rfl
  | cons => simp [behind]

/-- White space is put in front of the first pieces. -/
theorem behind_append {before : String} {first : List Piece} (filled : first ≠ [])
    (second : List Piece) : behind before (first ++ second) = behind before first ++ second := by
  cases first with
  | nil => contradiction
  | cons => rfl

/-- White space in front of the first piece does not count from its text on. -/
theorem joined_behind (before : String) (pieces : List Piece) :
    joined (behind before pieces) = joined pieces := by
  cases pieces <;> rfl

end Piece

namespace Node

mutual

/-- White space for the next token that is known behind a node, with `before` known in front. -/
def pending (before : String) : Node → String
  | leaf kind role span gap text =>
    if (leaf kind role span gap text).isComment then before ++ gap ++ " " else ""
  | branch _ _ _ children => pendingAll before children

/-- White space for the next token that is known behind several nodes. -/
def pendingAll (before : String) : List Node → String
  | [] => before
  | node :: rest => pendingAll (node.pending before) rest

end

mutual

/-- A node without offsets and the comments in it, with white space that is known in front. -/
def bare (before : String) : Node → Node
  | leaf kind role _ gap text => .leaf kind role ⟨0, 0⟩ (before ++ gap) text
  | branch kind role _ children => .branch kind role ⟨0, 0⟩ (bareAll before children)

/-- Nodes without offsets and comments. -/
def bareAll (before : String) : List Node → List Node
  | [] => []
  | node :: rest =>
    if node.isComment then bareAll (node.pending before) rest
    else node.bare before :: bareAll (node.pending before) rest

end

variable (before : String) (node : Node)

/-- A bare node has the same kind. -/
@[simp] theorem kind_bare : (node.bare before).kind = node.kind := by cases node <;> rfl

/-- A bare node has the same role. -/
@[simp] theorem role_bare : (node.bare before).role = node.role := by cases node <;> rfl

/-- A bare node has no offsets. -/
@[simp] theorem span_bare : (node.bare before).span = ⟨0, 0⟩ := by cases node <;> rfl

/-- The children of a bare node are bare and without comments. -/
@[simp] theorem children_bare : (node.bare before).children = bareAll before node.children := by
  cases node <;> rfl

/-- A bare node is the same construct. -/
@[simp] theorem is_bare (construct : Construct) :
    (node.bare before).is construct = node.is construct := by
  simp [is]

/-- A bare node is one of the same constructs. -/
@[simp] theorem isAny_bare (constructs : List Construct) :
    (node.bare before).isAny constructs = node.isAny constructs := by
  rw [isAny, funext (node.is_bare before), isAny]

/-- A bare node is a comment if it was one. -/
@[simp] theorem isComment_bare : (node.bare before).isComment = node.isComment :=
  node.isAny_bare before _

/-- A bare node is an extra if it was one. -/
@[simp] theorem isExtra_bare : (node.bare before).isExtra = node.isExtra := by simp [isExtra]

/-- A bare node is a construct if it was one. -/
@[simp] theorem isConstruct_bare : (node.bare before).isConstruct = node.isConstruct := by
  simp [isConstruct]

/-- A bare node is a part if it was one. -/
@[simp] theorem isPart_bare : (node.bare before).isPart = node.isPart := by simp [isPart]

/-- A node becomes bare in any role. -/
theorem bare_withRole (role : Option Role) :
    (node.withRole role).bare before = (node.bare before).withRole role := by
  cases node <;> rfl

/-- The role of a node says nothing about the white space behind it. -/
@[simp] theorem pending_withRole (role : Option Role) :
    (node.withRole role).pending before = node.pending before := by
  cases node <;> rfl

/-- White space is handed on from the first nodes to the others. -/
theorem pendingAll_append (nodes more : List Node) :
    pendingAll before (nodes ++ more) = pendingAll (pendingAll before nodes) more := by
  induction nodes generalizing before with
  | nil => rfl
  | cons node rest ih => exact ih _

/-- The others become bare behind the first nodes. -/
theorem bareAll_append (nodes more : List Node) :
    bareAll before (nodes ++ more) = bareAll before nodes ++ bareAll (pendingAll before nodes) more := by
  induction nodes generalizing before with
  | nil => rfl
  | cons node rest ih =>
    rw [List.cons_append, bareAll, bareAll, pendingAll, ih]
    split <;> rfl

/-- Bare nodes are those that are no comments, with what white space is known in front of them. -/
theorem exists_of_mem_bareAll {nodes : List Node} {node : Node}
    (inside : node ∈ bareAll before nodes) :
    ∃ meant ∈ nodes, meant.isComment = false ∧ ∃ pending, node = meant.bare pending := by
  induction nodes generalizing before with
  | nil => contradiction
  | cons first rest ih =>
    have later {pending : String} (inside : node ∈ bareAll pending rest) :
        ∃ meant ∈ first :: rest, meant.isComment = false ∧ ∃ pending, node = meant.bare pending := by
      obtain ⟨own, listed, meant⟩ := ih _ inside
      exact ⟨own, List.mem_cons_of_mem _ listed, meant⟩
    rw [bareAll] at inside
    split at inside
    · exact later inside
    · next meant =>
      rcases List.mem_cons.mp inside with rfl | inside
      · exact ⟨first, List.mem_cons_self, by simpa using meant, before, rfl⟩
      · exact later inside

/-- No comment is left among bare nodes. -/
theorem isComment_of_mem_bareAll {nodes : List Node} {node : Node}
    (inside : node ∈ bareAll before nodes) : node.isComment = false := by
  obtain ⟨own, _, meant, pending, rfl⟩ := exists_of_mem_bareAll before inside
  rw [isComment_bare, meant]

/-- Bare nodes have no offsets. -/
theorem span_of_mem_bareAll {nodes : List Node} {node : Node}
    (inside : node ∈ bareAll before nodes) : node.span = ⟨0, 0⟩ := by
  obtain ⟨own, _, _, pending, rfl⟩ := exists_of_mem_bareAll before inside
  exact own.span_bare pending

/-- What is known about the comments of a node: they have neither children nor a role. -/
structure Remarked (node : Node) : Prop where
  childless : node.isComment = true → node.children = []
  noRole : node.isComment = true → node.role = none

/-- What is known about the children of a construct: the first and the last are no comments. -/
structure Trimmed (node : Node) : Prop where
  first : ∀ child ∈ node.children.head?, child.isComment = false
  last : ∀ child ∈ node.children.getLast?, child.isComment = false

/-! ## Texts -/

mutual

/-- A bare node has the tokens of the node. -/
theorem leaves_bare : ∀ {node : Node} (before : String), node.Everywhere Remarked →
    node.isComment = false →
    (node.bare before).leaves.map text = node.tokens.map text
  | leaf kind role span gap text, before, _, meant => by
    simp [bare, leaves, tokens, meant, Node.text]
  | branch kind role span children, before, everywhere, _ => by
    rw [bare, leaves, tokens, leaves]
    exact leavesAll_bareAll before fun child below => everywhere.child below

/-- Bare nodes have the tokens of the nodes. -/
theorem leavesAll_bareAll : ∀ {nodes : List Node} (before : String),
    (∀ node ∈ nodes, node.Everywhere Remarked) →
    (leavesAll (bareAll before nodes)).map text =
      ((leavesAll nodes).filter (!·.isComment)).map text
  | [], _, _ => rfl
  | node :: rest, before, everywhere => by
    have here := everywhere node List.mem_cons_self
    have later := leavesAll_bareAll (node.pending before) fun other inside =>
      everywhere other (List.mem_cons_of_mem _ inside)
    rw [bareAll, leavesAll, List.filter_append, List.map_append]
    by_cases comment : node.isComment = true
    · have none : node.leaves.filter (!·.isComment) = [] := by
        have childless := here.here.childless comment
        cases node with
        | leaf => simp [leaves, comment]
        | branch kind role span children =>
          obtain rfl : children = [] := childless
          rfl
      rw [if_pos comment, later, none, List.map_nil, List.nil_append]
    · rw [if_neg comment, leavesAll, List.map_append, later,
        leaves_bare before here (by simpa using comment), tokens]

end

/-- A comment that has a text is a leaf, and so one of the comments of the node. -/
theorem comments_ne_nil {node : Node} (filled : node.filled = true)
    (childless : node.children = []) (comment : node.isComment = true) : node.comments ≠ [] := by
  rw [comments, leaves_of_childless filled childless]
  simp [comment]

mutual

/-- A node without comments keeps its pieces. The first one comes after the white space known. -/
theorem pieces_bare : ∀ {node : Node} (before : String), node.filled = true →
    node.Everywhere Remarked → node.comments = [] →
    (node.bare before).pieces = Piece.behind before node.pieces ∧
      (node.bare before).filled = true ∧ node.pending before = ""
  | leaf kind role span gap text, before, filled, _, commentless => by
    have meant : (leaf kind role span gap text).isComment = false := by
      simpa [comments, leaves] using commentless
    exact ⟨rfl, filled, by rw [pending, meant]; rfl⟩
  | branch kind role span children, before, filled, everywhere, commentless => by
    rw [Node.filled, Bool.and_eq_true, Bool.not_eq_true', List.isEmpty_eq_false_iff] at filled
    obtain ⟨pieces, bareFilled, some⟩ := piecesAll_bareAll before filled.2
      (fun child below => everywhere.child below) commentless
    obtain ⟨known, nonempty⟩ := some filled.1
    refine ⟨pieces, ?_, known⟩
    rw [bare, Node.filled, bareFilled, Bool.and_true, Bool.not_eq_true', List.isEmpty_eq_false_iff]
    exact nonempty

/-- The same of several nodes. -/
theorem piecesAll_bareAll : ∀ {nodes : List Node} (before : String), filledAll nodes = true →
    (∀ node ∈ nodes, node.Everywhere Remarked) → (leavesAll nodes).filter isComment = [] →
    piecesAll (bareAll before nodes) = Piece.behind before (piecesAll nodes) ∧
      filledAll (bareAll before nodes) = true ∧
      (nodes ≠ [] → pendingAll before nodes = "" ∧ bareAll before nodes ≠ [])
  | [], _, _, _, _ => ⟨rfl, rfl, fun some => absurd rfl some⟩
  | node :: rest, before, filled, everywhere, commentless => by
    rw [filledAll, Bool.and_eq_true] at filled
    rw [leavesAll, List.filter_append, List.append_eq_nil_iff] at commentless
    have here := everywhere node List.mem_cons_self
    have meant : ¬ node.isComment = true := fun comment =>
      comments_ne_nil filled.1 (here.here.childless comment) comment commentless.1
    obtain ⟨pieces, bareFilled, known⟩ := pieces_bare before filled.1 here commentless.1
    obtain ⟨later, laterFilled, last⟩ := piecesAll_bareAll "" filled.2
      (fun other inside => everywhere other (List.mem_cons_of_mem _ inside)) commentless.2
    rw [bareAll, if_neg meant, known, pendingAll, known, piecesAll, piecesAll, filledAll, pieces,
      bareFilled, later, laterFilled]
    refine ⟨?_, rfl, fun _ => ⟨?_, List.cons_ne_nil _ _⟩⟩
    · rw [Piece.behind_append (pieces_of_filled filled.1).1, Piece.behind_empty]
    · by_cases none : rest = []
      · rw [none, pendingAll]
      · exact (last none).1

end

/-- A node without comments keeps its text, which the white space in front does not belong to. -/
theorem text_bare {node : Node} (before : String) (filled : node.filled = true)
    (everywhere : node.Everywhere Remarked) (commentless : node.comments = []) :
    (node.bare before).text = node.text := by
  obtain ⟨pieces, bareFilled, _⟩ := pieces_bare before filled everywhere commentless
  rw [text_eq bareFilled, text_eq filled, pieces, Piece.joined_behind]

/-- A node without children keeps its text. -/
theorem text_bare_of_childless {node : Node} (childless : node.children = []) (before : String) :
    (node.bare before).text = node.text := by
  cases node with
  | leaf => rfl
  | branch kind role span children =>
    obtain rfl : children = [] := childless
    rfl

/-- The leaves of a filled node start and end with tokens if no construct in it starts or ends with
a comment. Induction on the node. -/
theorem ends_of_trimmed {node : Node} (trimmed : node.Everywhere Trimmed)
    (filled : node.filled = true) (meant : node.isComment = false) :
    (∀ leaf ∈ node.leaves.head?, leaf.isComment = false) ∧
      ∀ leaf ∈ node.leaves.getLast?, leaf.isComment = false := by
  induction trimmed with
  | @intro node here inside ih =>
    cases node with
    | leaf kind role span gap text => simpa [leaves] using meant
    | branch kind role span children =>
      have some : children ≠ [] := by
        rintro rfl
        simp [Node.filled] at filled
      have each (child : Node) (below : child ∈ children) := filled_of_mem_children filled below
      have leafy (child : Node) (below : child ∈ children) : child.leaves ≠ [] := by
        have pieces := (pieces_of_filled (each child below)).1
        rwa [pieces_eq, Ne, List.map_eq_nil_iff] at pieces
      rw [leaves, leavesAll_eq]
      constructor
      · obtain ⟨first, rest, rfl⟩ := List.exists_cons_of_ne_nil some
        have below : first ∈ first :: rest := List.mem_cons_self
        rw [List.flatMap_cons, List.head?_append_of_ne_nil _ (leafy first below)]
        exact (ih first below (each first below) (here.first first rfl)).1
      · have last := List.getLast?_eq_some_getLast some
        have below := List.getLast_mem some
        rw [← List.dropLast_concat_getLast some, List.flatMap_append, List.flatMap_singleton,
          List.getLast?_append_of_ne_nil _ (leafy _ below)]
        exact (ih _ below (each _ below) (here.last _ last)).2

/-- A node is a single word without comments exactly if it is with them. -/
theorem texts_bare_eq_singleton {node : Node} (before : String)
    (remarked : node.Everywhere Remarked) (trimmed : node.Everywhere Trimmed)
    (filled : node.filled = true) (meant : node.isComment = false) (word : String) :
    (node.bare before).pieces.map Piece.text = [word] ↔ node.pieces.map Piece.text = [word] := by
  obtain ⟨first, last⟩ := ends_of_trimmed trimmed filled meant
  rw [texts_pieces, texts_pieces, leaves_bare before remarked meant, tokens]
  cases leaves : node.leaves with
  | nil => simp
  | cons leaf rest =>
    rw [leaves] at first last
    rw [List.filter_cons_of_pos (by simp [first leaf rfl])]
    cases rest with
    | nil => simp
    | cons next others =>
      -- The last leaf is a token as well, and so there are two.
      have ending := List.getLast?_eq_some_getLast (List.cons_ne_nil next others)
      have token := last _ (by rw [List.getLast?_cons_cons, ending]; rfl)
      have kept : (next :: others).getLast (List.cons_ne_nil next others) ∈
          (next :: others).filter (!·.isComment) :=
        List.mem_filter.mpr ⟨List.getLast_mem _, by simp [token]⟩
      have some := List.ne_nil_of_mem kept
      simp only [List.map_cons, List.cons.injEq, List.map_eq_nil_iff, some, List.cons_ne_nil,
        and_false]

end Node

/-! ## Places -/

namespace Place

/-- White space that is known in front of the node that steps lead to. -/
def pendingAt : List Step → String
  | [] => ""
  | step :: above => Node.pendingAll (pendingAt above) (step.parent.children.take step.index)

/-- Steps in the bare tree, where comments do not count. -/
def bareSteps : List Step → List Step
  | [] => []
  | step :: above =>
    ⟨step.parent.bare (pendingAt above),
      (step.parent.children.take step.index).countP (!·.isComment)⟩ :: bareSteps above

/-- The same place in the bare tree. -/
def bare (place : Place) : Place := ⟨place.node.bare (pendingAt place.above), bareSteps place.above⟩

variable (place : Place)

/-- The node of a place becomes bare with it. -/
@[simp] theorem node_bare : place.bare.node = place.node.bare (pendingAt place.above) := rfl

/-- A bare place is the same construct. -/
@[simp] theorem is_bare (construct : Construct) : place.bare.is construct = place.is construct :=
  place.node.is_bare _ construct

/-- A bare place is one of the same constructs. -/
@[simp] theorem isAny_bare (constructs : List Construct) :
    place.bare.isAny constructs = place.isAny constructs := place.node.isAny_bare _ constructs

/-- The place around another one becomes bare with it. -/
@[simp] theorem parent?_bare : place.bare.parent? = place.parent?.map bare := by
  obtain ⟨node, above⟩ := place
  cases above <;> rfl

/-- The places around another one become bare with it. -/
@[simp] theorem ancestors_bare : place.bare.ancestors = place.ancestors.map bare := by
  have along_bare (above : List Step) : along (bareSteps above) = (along above).map bare := by
    induction above with
    | nil => rfl
    | cons step above ih =>
      rw [bareSteps, along, along, ih]
      rfl
  exact along_bare place.above

/-- The children of a bare place are those of the place that are no comments. -/
theorem children_bare :
    place.bare.children = (place.children.filter (!·.node.isComment)).map bare := by
  -- Induction on the children still to come; those in front tell numbers and white space.
  have below_bare (front nodes : List Node) (split : place.node.children = front ++ nodes) :
      place.bare.below (front.countP (!·.isComment))
          (Node.bareAll (Node.pendingAll (pendingAt place.above) front) nodes) =
        ((place.below front.length nodes).filter (!·.node.isComment)).map bare := by
    induction nodes generalizing front with
    | nil => rfl
    | cons node rest ih =>
      have later := ih (front ++ [node]) (by rw [split, List.append_assoc]; rfl)
      rw [List.countP_append, Node.pendingAll_append, List.length_append] at later
      have taken : place.node.children.take front.length = front := by rw [split]; simp
      rw [below, Node.bareAll]
      by_cases comment : node.isComment = true
      · rw [if_pos comment, List.filter_cons_of_neg (by simp [comment])]
        simpa [comment, Node.pendingAll] using later
      · rw [if_neg comment, List.filter_cons_of_pos (by simp [comment]), below, List.map_cons]
        have here : (⟨node, ⟨place.node, front.length⟩ :: place.above⟩ : Place).bare =
            ⟨node.bare (Node.pendingAll (pendingAt place.above) front),
              ⟨place.bare.node, front.countP (!·.isComment)⟩ :: place.bare.above⟩ := by
          simp [bare, pendingAt, bareSteps, taken]
        rw [here]
        simpa [comment, Node.pendingAll] using later
  have whole := below_bare [] place.node.children rfl
  simpa [children, Node.pendingAll] using whole

/-- The parts of a place become bare with it. -/
@[simp] theorem parts_bare : place.bare.parts = place.parts.map bare := by
  rw [parts, children_bare, List.filter_map, List.filter_filter, parts]
  congr 1
  refine List.filter_congr fun child _ => ?_
  by_cases comment : child.node.isComment = true <;> simp [Node.isPart, comment]

end Place

/-! ## Two trees -/

namespace Node.Holds

open Place

variable {root root' : Node} {place other : Place}

/-- What has a child is no comment. -/
theorem isComment_of_child (held : root.Holds place) (remarked : root.Everywhere Remarked)
    (below : other ∈ place.children) : place.node.isComment = false := by
  refine Bool.eq_false_iff.mpr fun comment => ?_
  have childless := (remarked.at_place held).here.childless comment
  have inside := node_mem_of_mem_children below
  rw [childless] at inside
  contradiction

/-- A place of a tree that is no comment is a place of the bare tree. -/
theorem bare (held : root.Holds place) (remarked : root.Everywhere Remarked)
    (meant : place.node.isComment = false) : (root.bare "").Holds place.bare := by
  induction held with
  | root => exact .root
  | @child around place held below ih =>
    have listed : place.bare ∈ around.bare.children := by
      rw [Place.children_bare]
      exact List.mem_map_of_mem (List.mem_filter.mpr ⟨below, by simp [meant]⟩)
    exact (ih (held.isComment_of_child remarked below)).child listed

/-- Trees that are the same when bare have the same places when bare. Induction on the way down to
the place. -/
theorem exists_bare (held : root.Holds place) (remarked : root.Everywhere Remarked)
    (alike : root.bare "" = root'.bare "") (meant : place.node.isComment = false) :
    ∃ place', root'.Holds place' ∧ place'.bare = place.bare := by
  induction held with
  | root =>
    refine ⟨.root root', .root, ?_⟩
    rw [Place.bare, Place.bare]
    simp only [Place.root, pendingAt, bareSteps, alike]
  | @child around place held below ih =>
    obtain ⟨around', held', same⟩ := ih (held.isComment_of_child remarked below)
    have listed : place.bare ∈ around.bare.children := by
      rw [Place.children_bare]
      exact List.mem_map_of_mem (List.mem_filter.mpr ⟨below, by simp [meant]⟩)
    rw [← same, Place.children_bare] at listed
    obtain ⟨place', inside, same'⟩ := List.mem_map.mp listed
    exact ⟨place', held'.child (List.mem_filter.mp inside).1, same'⟩

/-- Places that are no comments are told apart in the bare tree. -/
theorem eq_of_bare_eq (held : root.Holds place) (held' : root.Holds other)
    (remarked : root.Everywhere Remarked) (meant : place.node.isComment = false)
    (meant' : other.node.isComment = false) (same : place.bare = other.bare) : place = other := by
  induction held generalizing other with
  | root =>
    cases held' with
    | root => rfl
    | child around below =>
      obtain ⟨index, above⟩ := above_of_mem_children below
      have steps := congrArg Place.above same
      simp [Place.bare, Place.root, above, bareSteps] at steps
  | @child around place held below ih =>
    cases held' with
    | root =>
      obtain ⟨index, above⟩ := above_of_mem_children below
      have steps := congrArg Place.above same
      simp [Place.bare, Place.root, above, bareSteps] at steps
    | @child around' _ held' below' =>
      have parents := congrArg parent? same
      rw [parent?_bare, parent?_bare, parent?_of_mem_children below,
        parent?_of_mem_children below'] at parents
      obtain rfl := ih held' (held.isComment_of_child remarked below)
        (held'.isComment_of_child remarked below') (Option.some.inj parents)
      have once : ((around.children.filter (!·.node.isComment)).map Place.bare).Nodup := by
        rw [← Place.children_bare]
        exact nodup_children _
      exact List.inj_on_of_nodup_map once (List.mem_filter.mpr ⟨below, by simp [meant]⟩)
        (List.mem_filter.mpr ⟨below', by simp [meant']⟩) same

/-- Whether two places are the same can be told from the bare tree. -/
theorem same_bare (held : root.Holds place) (held' : root.Holds other)
    (remarked : root.Everywhere Remarked) (meant : place.node.isComment = false)
    (meant' : other.node.isComment = false) : place.bare.same other.bare = place.same other := by
  rw [Bool.eq_iff_iff, held.same_iff held',
    (held.bare remarked meant).same_iff (held'.bare remarked meant')]
  exact ⟨held.eq_of_bare_eq held' remarked meant meant', fun equal => equal ▸ rfl⟩

/-- A place in a role is no comment. -/
theorem isComment_of_role (held : root.Holds place) (remarked : root.Everywhere Remarked)
    {role : Role} (inRole : place.node.role = some role) : place.node.isComment = false := by
  refine Bool.eq_false_iff.mpr fun comment => ?_
  have noRole := (remarked.at_place held).here.noRole comment
  rw [inRole] at noRole
  contradiction

/-- The child in a role is found in the bare tree, because a comment has no role. -/
theorem child?_bare (held : root.Holds place) (remarked : root.Everywhere Remarked) (role : Role) :
    place.bare.child? role = (place.child? role).map Place.bare := by
  rw [Place.child?, Place.children_bare, List.find?_map, List.find?_filter, Place.child?,
    ← List.head?_filter, ← List.head?_filter]
  congr 2
  refine List.filter_congr fun child below => ?_
  rw [Bool.eq_iff_iff]
  by_cases comment : child.node.isComment = true
  · have noRole := (remarked.at_place (held.child below)).here.noRole comment
    simp [comment, noRole]
  · simp [comment]

/-- A place that is no comment has its role in the bare tree. -/
theorem hasRole_bare (held : root.Holds place) (remarked : root.Everywhere Remarked)
    (meant : place.node.isComment = false) (role : Role) :
    place.bare.hasRole role = place.hasRole role := by
  rw [hasRole, hasRole, parent?_bare]
  cases above : place.parent? with
  | none => rfl
  | some parent =>
    have heldParent := (held.parent above).1
    simp only [Option.map_some]
    rw [heldParent.child?_bare remarked role]
    cases found : parent.child? role with
    | none => rfl
    | some child =>
      have heldChild := heldParent.of_child? found
      have meantChild := heldChild.isComment_of_role remarked (mem_children_of_child? found).2
      simp only [Option.map_some, Option.any_some]
      exact held.same_bare heldChild remarked meant meantChild

end Node.Holds

end CaretName
