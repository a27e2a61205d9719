import CaretName.Proofs.Grammar.Likeness
import CaretName.Proofs.Grammar.Origin
import CaretName.Proofs.Tree.Bare

/-!
# Reading around comments

A comment stands between tokens, and the reader goes on as if it were a space. `Likeness.bare` says
so: from tokens that have the same white space and comments in front of them, when each comment
counts as a space, come nodes that are the same when bare. `Grammar.bare_parse` says what comes of
it for whole sources.

The comments themselves end up between the tokens of the smallest construct around them: no
construct starts or ends with one (`WellFormed.trimmed`).
-/
namespace CaretName

/-! ## Nodes and tokens -/

namespace Node

variable (before : String)

/-- White space in front of nodes that are put into a role is handed on as before. -/
theorem pendingAll_inRole (role : Role) (nodes : List Node) :
    pendingAll before (inRole role nodes) = pendingAll before nodes := by
  induction nodes generalizing before with
  | nil => rfl
  | cons node rest ih =>
    rw [inRole, List.map_cons, pendingAll, pendingAll, ← ih, inRole]
    split
    · rfl
    · rw [pending_withRole]

/-- Nodes become bare in any role. -/
theorem bareAll_inRole (role : Role) (nodes : List Node) :
    bareAll before (inRole role nodes) = inRole role (bareAll before nodes) := by
  induction nodes generalizing before with
  | nil => rfl
  | cons node rest ih =>
    rw [inRole, List.map_cons, ← inRole]
    by_cases kept : (node.isExtra || node.role.isSome) = true
    · rw [if_pos kept, bareAll, bareAll, ih]
      split
      · rfl
      · rw [inRole, inRole, List.map_cons, if_pos (by simpa using kept)]
    · have meant : ¬ node.isComment = true := fun comment => kept (by simp [isExtra, comment])
      have meant' : ¬ (node.withRole (some role)).isComment = true := by simpa using meant
      rw [if_neg kept, bareAll, bareAll, if_neg meant, if_neg meant', pending_withRole, ih, inRole,
        inRole, List.map_cons, if_neg (by simpa using kept), bare_withRole]

/-- The extras in front of bare nodes are the bare ones of those in front of the nodes. -/
theorem takeWhile_bareAll (nodes : List Node) :
    (bareAll before nodes).takeWhile isExtra = bareAll before (nodes.takeWhile isExtra) ∧
      (bareAll before nodes).dropWhile isExtra =
        bareAll (pendingAll before (nodes.takeWhile isExtra)) (nodes.dropWhile isExtra) := by
  induction nodes generalizing before with
  | nil => exact ⟨rfl, rfl⟩
  | cons node rest ih =>
    by_cases extra : node.isExtra = true
    · rw [List.takeWhile_cons_of_pos extra, List.dropWhile_cons_of_pos extra, bareAll, bareAll,
        pendingAll]
      split
      · exact ih _
      · rw [List.takeWhile_cons_of_pos (by simpa using extra),
          List.dropWhile_cons_of_pos (by simpa using extra), (ih _).1]
        exact ⟨rfl, (ih _).2⟩
    · have meant : ¬ node.isComment = true := fun comment => extra (by simp [isExtra, comment])
      have front : bareAll before (node :: rest) =
          node.bare before :: bareAll (node.pending before) rest := by
        rw [bareAll, if_neg meant]
      rw [List.takeWhile_cons_of_neg extra, List.dropWhile_cons_of_neg extra, front,
        List.takeWhile_cons_of_neg (by simpa using extra),
        List.dropWhile_cons_of_neg (by simpa using extra)]
      exact ⟨rfl, front.symm⟩

/-- White space is handed on as before when nodes are enclosed. -/
theorem pendingAll_enclose (construct : Construct) (nodes : List Node) :
    pendingAll before (enclose construct nodes) = pendingAll before nodes := by
  have whole := congrArg (pendingAll before) (nodes.takeWhile_append_dropWhile (p := isExtra))
  rcases enclose_eq construct nodes with ⟨empty, equal⟩ | ⟨_, _, _, _, equal⟩
  · rw [empty, List.append_nil] at whole
    rw [equal, whole]
  · rw [equal, ← whole, pendingAll_append, pendingAll_append]
    rfl

/-- Nodes are enclosed when bare as well, in a construct that is no comment. -/
theorem bareAll_enclose (construct : Construct) (nodes : List Node) :
    bareAll before (enclose construct nodes) =
      (enclose construct (bareAll before nodes)).filter (!·.isComment) := by
  obtain ⟨outside, inside⟩ := takeWhile_bareAll before nodes
  have kept : ∀ (known : String) (nodes : List Node),
      (bareAll known nodes).filter (!·.isComment) = bareAll known nodes := fun known nodes =>
    List.filter_eq_self.mpr fun node inside => by simp [isComment_of_mem_bareAll known inside]
  rcases enclose_eq construct nodes with ⟨empty, equal⟩ | ⟨first, _, head, _, equal⟩
  · have none : enclose construct (bareAll before nodes) =
        bareAll before (nodes.takeWhile isExtra) := by
      rw [enclose, outside, inside, empty]
      rfl
    rw [equal, none, kept]
  · obtain ⟨rest, split⟩ : ∃ rest, nodes.dropWhile isExtra = first :: rest :=
      List.head?_eq_some_iff.mp head
    have meant : first.isExtra = false := by
      have found := List.head?_dropWhile_not isExtra nodes
      rw [head] at found
      simpa using found
    have noComment : ¬ first.isComment = true := fun comment => by simp [isExtra, comment] at meant
    rcases enclose_eq construct (bareAll before nodes) with ⟨empty, _⟩ | ⟨one, other, one', other', equal'⟩
    · rw [inside, split, bareAll, if_neg noComment] at empty
      contradiction
    · rw [inside] at one' other'
      have starts := span_of_mem_bareAll _ (List.mem_of_head? one')
      have stops := span_of_mem_bareAll _ (List.mem_of_getLast? other')
      rw [equal, equal', outside, inside, bareAll_append, List.filter_append, kept]
      simp only [start, stop, starts, stops]
      refine congrArg (bareAll before (nodes.takeWhile isExtra) ++ ·) ?_
      -- Whether the construct counts as a comment is a matter of its kind.
      have kind (span : Span) (children : List Node) :
          (Node.branch (.construct construct) none span children).isComment =
            [Construct.lineComment, .blockComment].any (Kind.construct construct == .construct ·) :=
        rfl
      rw [bareAll, kind]
      split
      · next comment => rw [List.filter_cons_of_neg (by simp [kind, comment])]; rfl
      · next comment => rw [List.filter_cons_of_pos (by simpa [kind] using comment)]; rfl

/-- The first construct among nodes is found among the bare ones. -/
theorem leadingConstruct?_bareAll (nodes : List Node) :
    leadingConstruct? (bareAll before nodes) = leadingConstruct? nodes := by
  induction nodes generalizing before with
  | nil => rfl
  | cons node rest ih =>
    rw [bareAll]
    by_cases extra : node.isExtra = true
    · have later : leadingConstruct? (node :: rest) = leadingConstruct? rest := by
        rw [leadingConstruct?, List.find?_cons_of_neg (by simp [extra]), ← leadingConstruct?]
      split
      · rw [ih, later]
      · rw [later, leadingConstruct?, List.find?_cons_of_neg (by simp [extra]), ← leadingConstruct?,
          ih]
    · have meant : ¬ node.isComment = true := fun comment => extra (by simp [isExtra, comment])
      rw [if_neg meant, leadingConstruct?, List.find?_cons_of_pos (by simp [extra]),
        leadingConstruct?, List.find?_cons_of_pos (by simp [extra])]
      simp only [kind_bare]

end Node

/-- Two tokens that are used alike and have the same white space in front of them, when each comment
counts as a space. -/
structure Token.SameBare (token token' : Token) : Prop where
  sort : token.sort = token'.sort
  text : token.text = token'.text
  index : token.index = token'.index
  comments : ∀ before, Node.bareAll before token.before = Node.bareAll before token'.before
  gap : ∀ before, Node.pendingAll before token.before ++ token.gap =
    Node.pendingAll before token'.before ++ token'.gap

namespace Token.SameBare

variable {token token' : Token}

/-- Tokens that are the same when bare become nodes that are. -/
theorem nodes (same : SameBare token token') (kind : Kind) (before : String) :
    Node.bareAll before (token.nodes kind) = Node.bareAll before (token'.nodes kind) ∧
      Node.pendingAll before (token.nodes kind) = Node.pendingAll before (token'.nodes kind) := by
  have comment : (token.leaf kind).isComment = (token'.leaf kind).isComment := rfl
  have leaf : Node.bare (Node.pendingAll before token.before) (token.leaf kind) =
      Node.bare (Node.pendingAll before token'.before) (token'.leaf kind) := by
    rw [Token.leaf, Token.leaf, Node.bare, Node.bare, same.gap before, same.text]
  have behind : Node.pending (Node.pendingAll before token.before) (token.leaf kind) =
      Node.pending (Node.pendingAll before token'.before) (token'.leaf kind) := by
    rw [Token.leaf, Token.leaf, Node.pending, Node.pending, same.gap before]
    rfl
  rw [Token.nodes, Token.nodes, Node.bareAll_append, Node.bareAll_append, Node.pendingAll_append,
    Node.pendingAll_append, same.comments before]
  simp only [Node.bareAll, Node.pendingAll, comment, leaf, behind, and_self]

/-- Marks that are the same when bare are split alike. -/
theorem splitClosing? (same : SameBare token token') :
    Option.Rel (fun parts parts' => SameBare parts.1 parts'.1 ∧
      List.Forall₂ SameBare parts.2 parts'.2) token.splitClosing? token'.splitClosing? := by
  simp only [Token.splitClosing?, ← same.sort, ← same.text]
  split
  · exact .some ⟨same, .nil⟩
  · next rest _ _ =>
    refine .some ⟨⟨rfl, rfl, same.index, same.comments, same.gap⟩, ?_⟩
    split
    · exact .nil
    · exact .cons ⟨rfl, rfl, same.index, fun _ => rfl, fun _ => rfl⟩ .nil
  · exact .none

end Token.SameBare

/-! ## Sources -/

/-- What is the same when bare is alike. -/
def Likeness.bare : Likeness where
  nodes := fun nodes nodes' => ∀ before, Node.bareAll before nodes = Node.bareAll before nodes' ∧
    Node.pendingAll before nodes = Node.pendingAll before nodes'
  token := Token.SameBare
  nil := fun _ => ⟨rfl, rfl⟩
  append := fun first second before => by
    rw [Node.bareAll_append, Node.bareAll_append, Node.pendingAll_append, Node.pendingAll_append,
      (first before).1, (first before).2, (second _).1, (second _).2]
    exact ⟨rfl, rfl⟩
  inRole := fun role same before => by
    rw [Node.bareAll_inRole, Node.bareAll_inRole, Node.pendingAll_inRole, Node.pendingAll_inRole,
      (same before).1, (same before).2]
    exact ⟨rfl, rfl⟩
  enclose := fun construct same before => by
    rw [Node.bareAll_enclose, Node.bareAll_enclose, Node.pendingAll_enclose,
      Node.pendingAll_enclose, (same before).1, (same before).2]
    exact ⟨rfl, rfl⟩
  leading := fun same => by
    rw [← Node.leadingConstruct?_bareAll "", (same "").1, Node.leadingConstruct?_bareAll]
  sort := Token.SameBare.sort
  text := Token.SameBare.text
  index := Token.SameBare.index
  made := fun kind same => same.nodes kind
  split := Token.SameBare.splitClosing?

namespace Grammar

variable {source source' : String}

/-- A source that is read without a repair has the same bare tree as every other source whose tokens
are the same when bare, and they need no repair either. -/
theorem bare_parse (accepted : accepts source = true)
    (same : List.Forall₂ Token.SameBare (Lexer.tokenize source) (Lexer.tokenize source')) :
    accepts source' = true ∧ (parse source).bare "" = (parse source').bare "" := by
  obtain ⟨all, rest, reach, done⟩ := exists_done accepted
  have alike : List.Forall₂ Likeness.bare.token (Lexer.tokenize source)
    (Lexer.tokenize source') := same
  obtain ⟨nodes, nodes', last, last', rfl, ⟨_, done'⟩, made, ends⟩ := Likeness.file alike done
  have ends : Token.SameBare last last' := ends
  have nodesSame := made ""
  refine ⟨by rw [accepts, done'], ?_⟩
  simp only [parse_of_done done, parse_of_done done', rootOf, Node.bare, Node.bareAll_append,
    nodesSame.1, nodesSame.2, ends.comments]

end Grammar

/-! ## Comments in a tree -/

namespace Node

/-- Whether nodes end with one that is no extra. -/
def Ended (nodes : List Node) : Prop := ∀ last ∈ nodes.getLast?, last.isExtra = false

variable {nodes more : List Node}

/-- What is no extra is no comment. -/
theorem isComment_of_isExtra {node : Node} (meant : node.isExtra = false) :
    node.isComment = false := by
  rw [isExtra, Bool.or_eq_false_iff] at meant
  exact meant.1

/-- Nodes end as the last ones among them do. -/
theorem Ended.append (front : Ended nodes) (back : Ended more) : Ended (nodes ++ more) := by
  intro last found
  rw [List.getLast?_append] at found
  cases ending : more.getLast? with
  | none =>
    rw [ending, Option.none_or] at found
    exact front last found
  | some other =>
    rw [ending] at found
    obtain rfl : other = last := by simpa using found
    exact back other ending

/-- Nodes end alike in a role. -/
theorem Ended.inRole (ended : Ended nodes) (role : Role) : Ended (CaretName.inRole role nodes) := by
  intro last found
  rw [CaretName.inRole, List.getLast?_map] at found
  obtain ⟨before, ending, rfl⟩ := Option.map_eq_some_iff.mp found
  have meant := ended before ending
  split <;> simpa using meant

/-- A construct that is no extra ends what it encloses. -/
theorem Ended.enclose (ended : Ended nodes) {construct : Construct}
    (essential : construct.isEssential = true) : Ended (CaretName.enclose construct nodes) := by
  rcases enclose_eq construct nodes with ⟨empty, equal⟩ | ⟨_, _, _, _, equal⟩
  · have whole := nodes.takeWhile_append_dropWhile (p := isExtra)
    rw [empty, List.append_nil] at whole
    rw [equal, whole]
    exact ended
  · intro last found
    rw [equal, List.getLast?_concat] at found
    obtain rfl := Option.some.inj found
    exact isExtra_eq_false rfl essential

/-- A construct around nodes that end so is trimmed. -/
theorem Ended.trimmed (ended : Ended nodes) {node : Node}
    (around : node.children = nodes.dropWhile isExtra) : Trimmed node where
  first := by
    intro child found
    rw [around] at found
    have meant := List.head?_dropWhile_not isExtra nodes
    rw [Option.mem_def.mp found] at meant
    exact isComment_of_isExtra (by simpa using meant)
  last := by
    intro child found
    rw [around] at found
    have split := nodes.takeWhile_append_dropWhile (p := isExtra)
    refine isComment_of_isExtra (ended child ?_)
    rw [← split, List.getLast?_append, Option.mem_def.mp found]
    rfl

/-- What has no children is trimmed. -/
theorem trimmed_of_childless {node : Node} (childless : node.children = []) : Trimmed node :=
  ⟨by simp [childless], by simp [childless]⟩

end Node

/-- A property that the grammar gives to whatever it makes of tokens. -/
structure Node.Given (holds : Node → Prop) : Prop where
  role : ∀ ⦃node⦄, holds node → ∀ role, holds (node.withRole role)
  leaf : ∀ ⦃node : Node⦄, node.children = [] → node.isExtra = false → holds node
  branch : ∀ ⦃node nodes⦄, Ended nodes → node.isExtra = false →
    node.children = nodes.dropWhile isExtra → holds node

/-- What nodes end with does not depend on what a node grows from. -/
theorem Node.Ended.base {ρ : Type} {nodes : List Node} (ended : Ended nodes) (growth : Growth ρ) :
    Ended (growth.base nodes) := by
  unfold Growth.base
  split
  · exact ended.inRole _
  · exact ended

/-- What is known of a token and of the comments in front of it is known of the pieces of a mark
that is taken apart, too. -/
theorem Token.inherits_of_before (holds : Node → Prop) :
    Token.Inherits fun token => token.Sound ∧ ∀ node ∈ token.before, holds node where
  sound _ known := known.1
  split token bracket left known split := by
    obtain ⟨sound, others⟩ := known.1.of_splitClosing? split
    obtain ⟨_, _, _, rfl, rfl⟩ := Token.splitClosing?_eq_some known.1 split
    refine ⟨⟨sound, known.2⟩, fun part inside => ⟨others part inside, ?_⟩⟩
    split at inside
    · contradiction
    · obtain rfl := List.mem_singleton.mp inside
      simp

namespace Rule

open Grammar

variable {rule : Grammar.Rule} {tokens rest : List Token} {nodes : List Node}
  {holds : Node → Prop}

/-- What a regular rule reads ends with a node that is no extra. -/
theorem Reads.ended (reads : Reads rules rule tokens nodes rest)
    (here : ∀ inner ∈ rule.within, regular inner = true) : Node.Ended nodes := by
  have single {token : Token} {kind : Kind} (meant : (token.leaf kind).isExtra = false) :
      Node.Ended (token.nodes kind) := by
    intro last found
    rw [Token.nodes, List.getLast?_concat] at found
    obtain rfl := Option.some.inj found
    exact meant
  induction reads with
  | text | closing => exact single rfl
  | leaf | name | literal =>
    exact single (Node.isExtra_eq_false rfl (essential_of_token (here _ mem_within_self) rfl))
  | finish => exact absurd (here _ mem_within_self) (by simp [regular])
  | seqNil | manyNil | ahead => simp [Node.Ended]
  | part body ih => exact ih (regular_rules _)
  | seqCons first later ihFirst ihLater =>
    refine .append (ihFirst fun inner inside => ?first) (ihLater fun inner inside => ?later)
    case first => exact here inner (by simp [within, withinAll, inside])
    case later =>
      rcases List.mem_cons.mp inside with rfl | inside
      · rfl
      · exact here inner (by simp [within, withinAll, inside])
  | choice chosen body ih =>
    refine ih fun inner inside => here inner ?_
    exact List.mem_cons_of_mem _ (mem_withinAll.mpr ⟨_, chosen, inside⟩)
  | manyCons first later ihFirst ihLater =>
    exact (ihFirst fun inner inside => here inner (List.mem_cons_of_mem _ inside)).append
      (ihLater here)
  | node body ih =>
    exact (ih fun inner inside => here inner (List.mem_cons_of_mem _ inside)).enclose
      (essential_of_node (here _ mem_within_self))
  | field body ih =>
    exact (ih fun inner inside => here inner (List.mem_cons_of_mem _ inside)).inRole _
  | only body leading ih =>
    exact ih fun inner inside => here inner (List.mem_cons_of_mem _ inside)
  | seed body ih => exact ih fun inner inside => here inner (by simp [within, inside])
  | @growth _ _ growth _ _ _ _ _ _ base applies leading onto later ihBase ihLater =>
    have tail := ihLater fun inner inside => here inner <| List.mem_cons_of_mem _ <|
      List.mem_append_right _ <| mem_withinGrowths.mpr ⟨growth, applies, inside⟩
    rw [growth.apply_eq]
    exact (((ihBase here).base growth).append tail).enclose
      (essential_of_growth (here _ mem_within_self) applies)

/-- What a regular rule makes by itself has a given property. -/
theorem Forms.of_given (given : Node.Given holds) {known : Token → Prop} {node : Node}
    (forms : Forms rules known rule node) (here : ∀ inner ∈ rule.within, regular inner = true) :
    holds node := by
  cases forms with
  | text | closing => exact given.leaf rfl rfl
  | leaf | name | literal =>
    exact given.leaf rfl
      (Node.isExtra_eq_false rfl (essential_of_token (here _ mem_within_self) rfl))
  | node all body =>
    have inside := body.ended fun inner inside => here inner (List.mem_cons_of_mem _ inside)
    exact given.branch inside
      (Node.isExtra_eq_false rfl (essential_of_node (here _ mem_within_self))) rfl
  | @growth _ _ growth _ _ _ _ _ _ all applies base onto later =>
    have tail := later.ended fun inner inside => here inner <| List.mem_cons_of_mem _ <|
      List.mem_append_right _ <| mem_withinGrowths.mpr ⟨growth, applies, inside⟩
    exact given.branch (((base.ended here).base growth).append tail)
      (Node.isExtra_eq_false rfl (essential_of_growth (here _ mem_within_self) applies)) rfl

/-- A given property holds everywhere in what a file is made of if it holds of the comments in front
of the tokens. -/
theorem Reads.everywhere_file (given : Node.Given holds)
    (reads : Reads rules file tokens nodes rest)
    (known : ∀ token ∈ tokens, token.Sound ∧ ∀ node ∈ token.before, holds node) :
    ∀ node ∈ nodes, node.Everywhere holds := by
  refine reads.everywhere_of_forms (Token.inherits_of_before holds) given.role (fun _ known => known.2)
    (fun which inner inside node forms => ?parts) known fun inner inside node forms => ?file
  case parts =>
    exact forms.of_given given fun deeper below => regular_rules which _ (within_subset inside below)
  case file =>
    -- The rule of a file makes no node by itself.
    rcases mem_within_file.mp inside with rfl | rfl | rfl | rfl <;> cases forms

end Rule

namespace Grammar.WellFormed

variable {root : Node}

/-- Comments have neither children nor a role. -/
theorem remarked (wf : WellFormed root) : root.Everywhere Node.Remarked := by
  refine .of_holds fun place held => ⟨fun comment => ?_, fun comment => ?_⟩
  · refine List.eq_nil_iff_forall_not_mem.mpr fun node inside => ?_
    obtain ⟨child, below, _⟩ := Place.exists_mem_children inside
    have isPart := wf.isPart_of_mem_children held below
    simp [Node.isPart, comment] at isPart
  · cases held with
    | root =>
      obtain ⟨_, _, _, _, _, _, _, rfl⟩ := wf
      rfl
    | child around below =>
      have inside := Place.node_mem_of_mem_children below
      cases wf.regular_at around with
      | comment _ childless | mark _ childless _ | leaf _ _ childless _ | name _ _ childless _ _ =>
        simp [childless] at inside
      | branch _ fits =>
        rcases fits.cover _ inside with ⟨_, free⟩ | ⟨meant, _⟩
        · exact free
        · simp [Node.isExtra, comment] at meant

/-- No construct inside a file starts or ends with a comment. -/
theorem trimmed (wf : WellFormed root) : ∀ child ∈ root.children, child.Everywhere Node.Trimmed := by
  obtain ⟨tokens, nodes, rest, length, sound, lie, reads, rfl⟩ := wf
  have given : Node.Given Node.Trimmed :=
    ⟨fun node trimmed role => ⟨by simpa using trimmed.first, by simpa using trimmed.last⟩,
      fun node childless _ => Node.trimmed_of_childless childless,
      fun node nodes ended _ around => ended.trimmed around⟩
  exact reads.everywhere_file given fun token inside => ⟨sound token inside, fun node comment =>
    Node.trimmed_of_childless ((sound token inside).comments node comment).childless⟩

end Grammar.WellFormed

/-- A source without comments in front of its tokens has a tree without comments. -/
theorem Grammar.silent_parse {source : String} (accepted : accepts source = true)
    (none : ∀ token ∈ Lexer.tokenize source, token.before = []) :
    (parse source).Everywhere fun node => node.isComment = false := by
  obtain ⟨nodes, rest, reads, same⟩ := exists_reads accepted
  have given : Node.Given fun node => node.isComment = false :=
    ⟨fun node meant role => by simpa using meant, fun node _ => Node.isComment_of_isExtra,
      fun node nodes _ meant _ => Node.isComment_of_isExtra meant⟩
  have inside := reads.everywhere_file given fun token inside =>
    ⟨Lexer.tokenize_sound token inside, by simp [none token inside]⟩
  rw [same]
  exact .intro rfl inside

end CaretName
