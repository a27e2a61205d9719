import CaretName.Proofs.Grammar.Sights

/-!
# What the rules of a grammar make

`Rule.shapes` lists what the children of the constructs look like that a rule makes. It is
computed from the grammar, so what a grammar guarantees about its trees is a check of its rules.
`Reads.made` is the theorem behind such checks: every node of a derivation is a comment or made
by a rule of the grammar.
-/
namespace CaretName

/-! ## Shapes -/

/-- What can be foreseen of the children of a construct. -/
structure Shape where
  construct : Construct
  /-- How the children look, comments aside. -/
  sights : List Sight
  /-- How the children look one after another, if there are always as many. -/
  order : Option (List (List Sight))
  /-- Whether a child is sure to be its name. -/
  named : Bool
  deriving Repr

/-- Whether a node has a child that is its name. -/
def Node.isNamed (node : Node) : Prop := ∃ child ∈ node.children, child.role = some .name

/-- Whether a node has the shape. -/
structure Shape.Fits (shape : Shape) (node : Node) : Prop where
  kind : node.kind = .construct shape.construct
  cover : Sight.Cover shape.sights node.children
  /-- Nodes that have an order start with the first that is no comment. -/
  order : ∀ order, shape.order = some order → Sight.InOrder order node.children ∧
    node.children.head? = (Node.essentials node.children).head?
  named : shape.named = true → node.isNamed

namespace Rule

variable {π : Type}

mutual

/-- Whether what a rule reads is sure to hold a name in the role of one. -/
def named : Rule π → Bool
  | .field .name (.name .identifier _) => true
  | .seq rules => anyNamed rules
  | _ => false

/-- Whether what one of several rules reads is sure to hold a name in the role of one. -/
def anyNamed : List (Rule π) → Bool
  | [] => false
  | rule :: rules => rule.named || anyNamed rules

end

/-- The shape of what a growth makes of what a seed has grown into. -/
def grownShape (known : π → List Look) (seed : Rule π) (growths : List (Growth (Rule π)))
    (growth : Growth (Rule π)) : Shape where
  construct := growth.construct
  sights :=
    ((grow seed growths).sights known).map (Sight.inRole growth.role) ++
      growth.tail.sights known
  order := ((grow seed growths).order known).bind fun first =>
    (growth.tail.order known).map (first.map (List.map (Sight.inRole growth.role)) ++ ·)
  named := growth.tail.named

/-- The shapes of the constructs that a rule makes by itself, and not through the rules that it
is made of. -/
def shapes (known : π → List Look) : Rule π → List Shape
  | .node construct rule => [⟨construct, rule.sights known, rule.order known, rule.named⟩]
  | .grow seed growths => growths.map (grownShape known seed growths)
  | _ => []

mutual

/-- The rules that a rule is made of, itself among them. -/
def within : Rule π → List (Rule π)
  | .seq rules => .seq rules :: withinAll rules
  | .choice rules => .choice rules :: withinAll rules
  | .many rule => .many rule :: rule.within
  | .node construct rule => .node construct rule :: rule.within
  | .field role rule => .field role rule :: rule.within
  | .only constructs rule => .only constructs rule :: rule.within
  | .grow seed growths => .grow seed growths :: (seed.within ++ withinGrowths growths)
  | rule => [rule]

/-- The rules that several rules are made of. -/
def withinAll : List (Rule π) → List (Rule π)
  | [] => []
  | rule :: rules => rule.within ++ withinAll rules

/-- The rules that the tails of growths are made of. -/
def withinGrowths : List (Growth (Rule π)) → List (Rule π)
  | [] => []
  | ⟨_, _, _, tail⟩ :: growths => tail.within ++ withinGrowths growths

end

/-- A node is made by a rule itself: a token that the rule asks for, or a construct of one of
its shapes. -/
inductive Makes (known : π → List Look) : Rule π → Node → Prop
  /-- A keyword or a mark. -/
  | mark {rule : Rule π} {node : Node} {text : String} (kind : node.kind = .mark text)
    (childless : node.children = []) (visible : node.start < node.stop) : Makes known rule node
  /-- A keyword that is a construct. -/
  | leaf {node : Node} {construct : Construct} {text : String}
    (kind : node.kind = .construct construct) (childless : node.children = [])
    (visible : node.start < node.stop) : Makes known (.leaf construct text) node
  /-- A literal. -/
  | literal {node : Node} {construct : Construct} (kind : node.kind = .construct construct)
    (childless : node.children = []) (visible : node.start < node.stop) :
    Makes known (.literal construct) node
  /-- A name. -/
  | name {node : Node} {construct : Construct} {reserved : List String}
    (kind : node.kind = .construct construct) (childless : node.children = [])
    (visible : node.start < node.stop) (word : IsWord node.text) :
    Makes known (.name construct reserved) node
  /-- A construct around others. -/
  | branch {rule : Rule π} {node : Node} {shape : Shape} (shaped : shape ∈ rule.shapes known)
    (fits : shape.Fits node) : Makes known rule node

/-- A node of a tree that a grammar derives is a comment, or made by one of the rules. -/
inductive Made (grammar : π → Rule π) (known : π → List Look) : Node → Prop
  /-- A comment. -/
  | comment {node : Node} (isComment : node.isComment = true) (childless : node.children = []) :
    Made grammar known node
  /-- What a rule makes. -/
  | rule {which : π} {rule : Rule π} {node : Node} (inside : rule ∈ (grammar which).within)
    (makes : rule.Makes known node) : Made grammar known node

/-- What a rule by itself makes of tokens of which something is known: the leaf of a token, or a
construct around what the rules read that it is made of. -/
inductive Forms (grammar : π → Rule π) (known : Token → Prop) : Rule π → Node → Prop
  | text {text : String} {token : Token} (first : known token) (spells : token.spells text = true) :
    Forms grammar known (.text text) (token.leaf (.mark text))
  | leaf {construct : Construct} {text : String} {token : Token} (first : known token)
    (spells : token.spells text = true) :
    Forms grammar known (.leaf construct text) (token.leaf (.construct construct))
  | name {construct : Construct} {reserved : List String} {token : Token} (first : known token)
    (isName : token.isName reserved = true) :
    Forms grammar known (.name construct reserved) (token.leaf (.construct construct))
  | literal {construct : Construct} {token : Token} (first : known token)
    (sort : token.sort = .literal construct) :
    Forms grammar known (.literal construct) (token.leaf (.construct construct))
  | closing {token bracket : Token} {left : List Token} (first : known token)
    (split : token.splitClosing? = Option.some (bracket, left)) :
    Forms grammar known .closing (bracket.leaf (.mark ">"))
  | node {construct : Construct} {rule : Rule π} {tokens rest : List Token} {nodes : List Node}
    {span : Span} (all : ∀ token ∈ tokens, known token)
    (body : Reads grammar rule tokens nodes rest) :
    Forms grammar known (.node construct rule)
      (.branch (.construct construct) Option.none span (nodes.dropWhile Node.isExtra))
  | growth {seed : Rule π} {growths : List (Growth (Rule π))} {growth : Growth (Rule π)}
    {tokens middle rest : List Token} {nodes tail : List Node} {span : Span}
    (all : ∀ token ∈ tokens, known token) (applies : growth ∈ growths)
    (base : Reads grammar (.grow seed growths) tokens nodes middle)
    (onto : (leadingConstruct? nodes).any growth.onto = true)
    (later : Reads grammar growth.tail middle tail rest) :
    Forms grammar known (.grow seed growths)
      (.branch (.construct growth.construct) Option.none span
        ((growth.base nodes ++ tail).dropWhile Node.isExtra))

/-! ## Rules within rules -/

variable {rule inner : Rule π} {rules : List (Rule π)}

/-- A rule is within itself. -/
theorem mem_within_self : rule ∈ rule.within := by
  cases rule <;> simp [within]

/-- What is within several rules is within one of them. -/
theorem mem_withinAll : inner ∈ withinAll rules ↔ ∃ rule ∈ rules, inner ∈ rule.within := by
  induction rules with
  | nil => simp [withinAll]
  | cons rule rules ih => simp [withinAll, ih]

/-- What is within the tails of growths is within one of them. -/
theorem mem_withinGrowths {growths : List (Growth (Rule π))} :
    inner ∈ withinGrowths growths ↔ ∃ growth ∈ growths, inner ∈ growth.tail.within := by
  induction growths with
  | nil => simp [withinGrowths]
  | cons growth growths ih =>
    obtain ⟨onto, role, construct, tail⟩ := growth
    simp [withinGrowths, ih]

mutual

/-- What is within a part of a rule is within the rule. -/
theorem within_subset : ∀ {rule inner : Rule π}, inner ∈ rule.within → inner.within ⊆ rule.within
  | .seq rules, inner, inside | .choice rules, inner, inside => by
    rcases List.mem_cons.mp inside with rfl | inside
    · exact fun _ => id
    · exact List.subset_cons_of_subset _ (withinAll_subset inside)
  | .many rule, inner, inside | .node _ rule, inner, inside | .field _ rule, inner, inside
  | .only _ rule, inner, inside => by
    rcases List.mem_cons.mp inside with rfl | inside
    · exact fun _ => id
    · exact List.subset_cons_of_subset _ (within_subset inside)
  | .grow seed growths, inner, inside => by
    rcases List.mem_cons.mp inside with rfl | inside
    · exact fun _ => id
    rcases List.mem_append.mp inside with inside | inside
    · exact List.subset_cons_of_subset _
        (List.subset_append_of_subset_left _ (within_subset inside))
    · exact List.subset_cons_of_subset _
        (List.subset_append_of_subset_right _ (withinGrowths_subset inside))
  | .text _, inner, inside | .leaf _ _, inner, inside | .name _ _, inner, inside
  | .closing, inner, inside | .literal _, inner, inside | .finish, inner, inside
  | .part _, inner, inside | .ahead _, inner, inside => by
    obtain rfl := List.mem_singleton.mp inside
    exact fun _ => id

/-- What is within a part of several rules is within them. -/
theorem withinAll_subset : ∀ {rules : List (Rule π)} {inner : Rule π}, inner ∈ withinAll rules →
    inner.within ⊆ withinAll rules
  | rule :: rules, inner, inside => by
    rcases List.mem_append.mp inside with inside | inside
    · exact List.subset_append_of_subset_left _ (within_subset inside)
    · exact List.subset_append_of_subset_right _ (withinAll_subset inside)

/-- What is within a part of the tails of growths is within these. -/
theorem withinGrowths_subset : ∀ {growths : List (Growth (Rule π))} {inner : Rule π},
    inner ∈ withinGrowths growths → inner.within ⊆ withinGrowths growths
  | ⟨_, _, _, tail⟩ :: growths, inner, inside => by
    rcases List.mem_append.mp inside with inside | inside
    · exact List.subset_append_of_subset_left _ (within_subset inside)
    · exact List.subset_append_of_subset_right _ (withinGrowths_subset inside)

end

end Rule

variable {π : Type} {grammar : π → Rule π} {known : π → List Look}

/-- What makes a node makes it in any role. -/
theorem Rule.Makes.withRole {rule : Rule π} {node : Node} (makes : rule.Makes known node)
    (role : Option Role) : rule.Makes known (node.withRole role) := by
  cases makes with
  | mark kind childless visible => exact .mark (by simpa) (by simpa) (by simpa)
  | leaf kind childless visible => exact .leaf (by simpa) (by simpa) (by simpa)
  | literal kind childless visible => exact .literal (by simpa) (by simpa) (by simpa)
  | name kind childless visible word => exact .name (by simpa) (by simpa) (by simpa) (by simpa)
  | branch shaped fits =>
    exact .branch shaped ⟨by simpa using fits.kind, by simpa using fits.cover,
      by simpa using fits.order, by simpa [Node.isNamed] using fits.named⟩

/-- What makes a node does not depend on its role. -/
theorem Rule.Made.withRole {node : Node} (made : Made grammar known node) (role : Option Role) :
    Made grammar known (node.withRole role) := by
  cases made with
  | comment isComment childless => exact .comment (by simpa) (by simpa)
  | rule inner makes => exact .rule inner (makes.withRole role)

section Everywhere

variable {holds : Node → Prop} {nodes : List Node}

/-- What holds everywhere in a node holds everywhere in it in any role, if roles do not matter. -/
theorem Node.Everywhere.withRole
    (roles : ∀ ⦃node⦄, holds node → ∀ role, holds (node.withRole role)) {node : Node}
    (everywhere : node.Everywhere holds) (role : Option Role) :
    (node.withRole role).Everywhere holds := by
  cases everywhere with
  | intro here inside => exact .intro (roles here role) (by simpa using inside)

/-- What holds everywhere in nodes holds everywhere in them in a role, if roles do not matter. -/
theorem everywhere_inRole (roles : ∀ ⦃node⦄, holds node → ∀ role, holds (node.withRole role))
    {role : Role} (all : ∀ node ∈ nodes, node.Everywhere holds) :
    ∀ node ∈ inRole role nodes, node.Everywhere holds := by
  intro node inside
  obtain ⟨before, found, ⟨_, rfl⟩ | ⟨_, _, rfl⟩⟩ := exists_of_mem_inRole inside
  · exact all node found
  · exact (all before found).withRole roles _

/-- What holds of a token's comments and of its leaf holds everywhere in its nodes. -/
theorem Token.Sound.everywhere {token : Token} (sound : token.Sound) {kind : Kind}
    (comments : ∀ node ∈ token.before, holds node) (leaf : holds (token.leaf kind)) :
    ∀ node ∈ token.nodes kind, node.Everywhere holds := by
  intro node inside
  rcases List.mem_append.mp inside with before | itself
  · exact .intro (comments node before) (by simp [(sound.comments node before).childless])
  · obtain rfl := List.mem_singleton.mp itself
    exact .intro leaf (by simp [Token.leaf, Node.children])

/-- What holds everywhere in nodes holds everywhere in what they are enclosed in, if it holds of the
construct around them. -/
theorem everywhere_enclose {construct : Construct}
    (all : ∀ node ∈ nodes, node.Everywhere holds)
    (branch : ∀ span, holds
      (.branch (.construct construct) none span (nodes.dropWhile Node.isExtra))) :
    ∀ node ∈ enclose construct nodes, node.Everywhere holds := by
  have outside : ∀ node ∈ nodes.takeWhile Node.isExtra, node.Everywhere holds :=
    fun node inside => all node (List.takeWhile_subset _ inside)
  rcases enclose_eq construct nodes with ⟨_, equal⟩ | ⟨first, last, _, _, equal⟩
  · rwa [equal]
  · rw [equal]
    refine List.forall_mem_append.mpr ⟨outside, List.forall_mem_singleton.mpr ?_⟩
    exact .intro (branch _) fun node inside => all node (List.dropWhile_subset _ inside)

end Everywhere

/-- A token that is used for a keyword, a mark, a name or a literal takes up room. -/
theorem Token.Sound.visible_of_spells {token : Token} {text : String} (sound : token.Sound)
    (spells : token.spells text = true) : token.span.start < token.span.stop := by
  refine sound.visible fun finish => ?_
  simp [Token.spells, finish] at spells

/-- A token that is used for a name is a word. -/
theorem Token.Sound.word_of_isName {token : Token} {reserved : List String} (sound : token.Sound)
    (named : token.isName reserved = true) : token.sort = .word := by
  unfold Token.isName at named
  split at named
  · assumption
  · next supplied => exact absurd supplied (sound.found _)
  · contradiction

/-- What is known of tokens is known of the pieces of a mark that is taken apart, too. -/
structure Token.Inherits (known : Token → Prop) : Prop where
  sound : ∀ ⦃token⦄, known token → token.Sound
  split : ∀ ⦃token bracket left⦄, known token →
    token.splitClosing? = some (bracket, left) →
    known bracket ∧ ∀ part ∈ left, known part

/-- A construct around nodes has a shape that foresees them. -/
theorem Shape.fits_branch {shape : Shape} {nodes : List Node}
    (cover : Sight.Cover shape.sights nodes)
    (order : ∀ order, shape.order = some order → Sight.InOrder order nodes)
    (named : shape.named = true → ∃ node ∈ nodes, node.isExtra = false ∧ node.role = some .name)
    (span : Span) : shape.Fits
      (.branch (.construct shape.construct) none span (nodes.dropWhile Node.isExtra)) where
  kind := rfl
  cover := fun node inside => cover node (List.dropWhile_subset _ inside)
  order := fun own same => by
    have matched := order own same
    rw [Sight.InOrder, Node.children, Node.essentials_dropWhile]
    exact ⟨matched, Node.head?_dropWhile⟩
  named := fun isNamed => by
    obtain ⟨node, inside, meant, role⟩ := named isNamed
    exact ⟨node, mem_dropWhile_of_not_extra inside meant, role⟩

namespace Rule.Reads

variable {rule : Rule π} {tokens rest : List Token} {nodes : List Node}

/-- A rule that is sure to read a name reads one. -/
theorem named (reads : Reads grammar rule tokens nodes rest) (isNamed : rule.named = true) :
    ∃ node ∈ nodes, node.isExtra = false ∧ node.role = Option.some .name := by
  induction reads with
  | text | leaf | name | literal | closing | finish | ahead => simp [Rule.named] at isNamed
  | part | choice | node | only | seed | growth | manyNil | manyCons =>
    simp [Rule.named] at isNamed
  | seqNil => simp [Rule.named, anyNamed] at isNamed
  | seqCons first later ihFirst ihLater =>
    simp only [Rule.named, anyNamed, Bool.or_eq_true] at isNamed
    rcases isNamed with front | back
    · obtain ⟨node, inside, found⟩ := ihFirst front
      exact ⟨node, List.mem_append_left _ inside, found⟩
    · obtain ⟨node, inside, found⟩ := ihLater (by simpa [Rule.named] using back)
      exact ⟨node, List.mem_append_right _ inside, found⟩
  | @field role rule tokens rest nodes body ih =>
    unfold Rule.named at isNamed
    split at isNamed
    · next same =>
      simp only [Rule.field.injEq] at same
      obtain ⟨rfl, rfl⟩ := same
      cases body with
      | @name _ _ token _ isName =>
        refine ⟨(token.leaf (.construct .identifier)).withRole (Option.some .name), ?_, rfl, rfl⟩
        exact List.mem_map.mpr ⟨_, List.mem_append_right _ (List.mem_singleton_self _), rfl⟩
    · next same => simp at same
    · contradiction

/-- What holds in any role, of comments and of what rules make by themselves holds everywhere in a
derivation. Induction on the derivation. -/
theorem everywhere_of_forms {known : Token → Prop} {holds : Node → Prop}
    (inherits : Token.Inherits known)
    (roles : ∀ ⦃node⦄, holds node → ∀ role, holds (node.withRole role))
    (comments : ∀ ⦃token⦄, known token → ∀ comment ∈ token.before, holds comment)
    (parts : ∀ which, ∀ inner ∈ (grammar which).within, ∀ node,
      Forms grammar known inner node → holds node)
    (reads : Reads grammar rule tokens nodes rest) (all : ∀ token ∈ tokens, known token)
    (here : ∀ inner ∈ rule.within, ∀ node, Forms grammar known inner node → holds node) :
    ∀ node ∈ nodes, node.Everywhere holds := by
  have leaf {token : Token} (first : known token) {kind : Kind} (own : holds (token.leaf kind)) :
      ∀ node ∈ token.nodes kind, node.Everywhere holds :=
    (inherits.sound first).everywhere (comments first) own
  have left {rule : Rule π} {tokens rest : List Token} {nodes : List Node}
      (reads : Reads grammar rule tokens nodes rest) (all : ∀ token ∈ tokens, known token) :
      ∀ token ∈ rest, known token :=
    reads.all_rest (fun _ _ _ own split => (inherits.split own split).2) all
  induction reads with
  | text spells =>
    have first := all _ List.mem_cons_self
    exact leaf first (here _ mem_within_self _ (.text first spells))
  | leaf spells =>
    have first := all _ List.mem_cons_self
    exact leaf first (here _ mem_within_self _ (.leaf first spells))
  | name isName =>
    have first := all _ List.mem_cons_self
    exact leaf first (here _ mem_within_self _ (.name first isName))
  | literal sort =>
    have first := all _ List.mem_cons_self
    exact leaf first (here _ mem_within_self _ (.literal first sort))
  | closing split =>
    have first := all _ List.mem_cons_self
    exact leaf (inherits.split first split).1 (here _ mem_within_self _ (.closing first split))
  | finish =>
    intro comment inside
    have first := all _ List.mem_cons_self
    have childless := ((inherits.sound first).comments comment inside).childless
    exact .intro (comments first comment inside) (by simp [childless])
  | seqNil | manyNil | ahead => simp
  | part body ih => exact ih all (parts _)
  | @seqCons rule rules _ _ _ _ _ first later ihFirst ihLater =>
    refine List.forall_mem_append.mpr
      ⟨ihFirst all fun inner inside => here inner (by simp [within, withinAll, inside]),
        ihLater (left first all) fun inner inside node forms => ?_⟩
    -- The rest of a sequence makes nothing by itself.
    rcases List.mem_cons.mp inside with rfl | inside
    · cases forms
    · exact here inner (by simp [within, withinAll, inside]) node forms
  | choice chosen body ih =>
    refine ih all fun inner inside => here inner ?_
    exact List.mem_cons_of_mem _ (mem_withinAll.mpr ⟨_, chosen, inside⟩)
  | manyCons first later ihFirst ihLater =>
    exact List.forall_mem_append.mpr
      ⟨ihFirst all fun inner inside => here inner (List.mem_cons_of_mem _ inside),
        ihLater (left first all) here⟩
  | node body ih =>
    exact everywhere_enclose
      (ih all fun inner inside => here inner (List.mem_cons_of_mem _ inside))
      fun span => here _ mem_within_self _ (.node all body)
  | field body ih =>
    exact everywhere_inRole roles
      (ih all fun inner inside => here inner (List.mem_cons_of_mem _ inside))
  | only body leading ih =>
    exact ih all fun inner inside => here inner (List.mem_cons_of_mem _ inside)
  | seed body ih =>
    exact ih all fun inner inside => here inner (by simp [within, inside])
  | @growth seed growths growth _ _ _ _ nodes tail base applies leading onto later ihBase ihLater =>
    have before := ihBase all here
    have behind := ihLater (left base all) fun inner inside => here inner <|
      List.mem_cons_of_mem _ <| List.mem_append_right _ <|
        mem_withinGrowths.mpr ⟨growth, applies, inside⟩
    refine everywhere_enclose (List.forall_mem_append.mpr ⟨?_, behind⟩) fun span =>
      here _ mem_within_self _ (.growth all applies base (by rw [leading]; exact onto) later)
    cases growth.role with
    | none => exact before
    | some role => exact everywhere_inRole roles before

end Rule.Reads

/-- What a rule makes of sound tokens is one of the things that it is known to make. -/
theorem Rule.Forms.makes (knows : Rule.Knows grammar known) {rule : Rule π} {node : Node}
    (forms : rule.Forms grammar Token.Sound node) : rule.Makes known node := by
  cases forms with
  | text first spells => exact .mark rfl rfl (first.visible_of_spells spells)
  | leaf first spells => exact .leaf rfl rfl (first.visible_of_spells spells)
  | name first isName =>
    have word := first.word_of_isName isName
    exact .name rfl rfl (first.visible (by simp [word])) (first.word word)
  | literal first sort => exact .literal rfl rfl (first.visible (by simp [sort]))
  | closing first split =>
    have bracket := (first.of_splitClosing? split).1
    obtain ⟨mark, _, _, rfl, _⟩ := Token.splitClosing?_eq_some first split
    exact .mark rfl rfl (bracket.visible (by simp [mark]))
  | node all body =>
    exact .branch (List.mem_singleton_self _) <|
      Shape.fits_branch (body.cover knows all) (body.inOrder knows all) body.named _
  | growth all applies base onto later =>
    have behind := base.sound_rest all
    refine .branch (List.mem_map_of_mem applies) <|
      Shape.fits_branch (Sight.Cover.append ?_ ?_) (fun own same => ?_) (fun isNamed => ?_) _
    · exact ((base.cover knows all).base _).mono fun _ => List.mem_append_left _
    · exact (later.cover knows behind).mono fun _ => List.mem_append_right _
    · obtain ⟨first, itself, same⟩ := Option.bind_eq_some_iff.mp same
      obtain ⟨others, rest, rfl⟩ := Option.map_eq_some_iff.mp same
      exact ((base.inOrder knows all first itself).base _).append
        (later.inOrder knows behind others rest)
    · obtain ⟨node, inside, found⟩ := later.named isNamed
      exact ⟨node, List.mem_append_right _ inside, found⟩

/-- All nodes of a derivation are made everywhere. -/
theorem Rule.Reads.made (knows : Rule.Knows grammar known) {rule : Rule π}
    {tokens rest : List Token} {nodes : List Node} (reads : Reads grammar rule tokens nodes rest)
    (sound : ∀ token ∈ tokens, token.Sound)
    (here : ∀ inner ∈ rule.within, ∀ node, inner.Makes known node → Made grammar known node) :
    ∀ node ∈ nodes, node.Everywhere (Made grammar known) :=
  reads.everywhere_of_forms ⟨fun _ => id, fun _ _ _ => Token.Sound.of_splitClosing?⟩
    (fun _ made => made.withRole)
    (fun _ sound comment inside => .comment (sound.comments comment inside).isComment
      (sound.comments comment inside).childless)
    (fun _ _ inside _ forms => .rule inside (forms.makes knows)) sound
    fun inner inside node forms => here inner inside node (forms.makes knows)

end CaretName
