import CaretName.Proofs.Grammar.WellFormed
import CaretName.Proofs.Tree.Leaves

/-!
# Where nodes come from

`Rule.Made` foresees how the children of a construct look. For what a construct spells that is not
enough: a mark is only known as some mark. `Rule.Origin` keeps what the parts of a construct were
read by, `Reads.origin` gives every node of a derivation its origin, and `Grammar.origin_parse` does
so for the nodes of a source.
-/
namespace CaretName

/-- Whether a text starts with the character that comments start with. -/
def StartsWithSlash (text : String) : Prop := text.toList.head? = some '/'

/-! ## Comments -/

namespace Lexer

/-- Whether a lexeme is a comment. -/
def Lexeme.isComment (lexeme : Lexeme) : Bool :=
  lexeme.sort == .literal .lineComment || lexeme.sort == .literal .blockComment

/-- Whether a lexeme is white space or a comment. -/
def Lexeme.isSpace (lexeme : Lexeme) : Bool := lexeme.sort == .finish || lexeme.isComment

/-- A comment is one by its first two characters. -/
theorem slash_of_comment? {chars : List Char} {lexeme : Lexeme}
    (found : comment? chars = some lexeme) :
    lexeme.isComment = true ∧ lexeme.chars.head? = some '/' := by
  cases form_of_comment? found with
  | line | block => exact ⟨rfl, rfl⟩

/-- A word is neither white space nor a comment. -/
theorem isSpace_of_word? {chars : List Char} {lexeme : Lexeme}
    (found : word? chars = some lexeme) : lexeme.isSpace = false := by
  cases form_of_word? found with
  | word | hyphenated => rfl

/-- A number is neither white space nor a comment. -/
theorem isSpace_of_number? {chars : List Char} {lexeme : Lexeme}
    (found : number? chars = some lexeme) : lexeme.isSpace = false := by
  cases form_of_number? found with
  | announced =>
    simp only [announced, Lexeme.isSpace, Lexeme.isComment]
    split_ifs <;> rfl
  | plain | fraction =>
    simp only [plain, Lexeme.isSpace, Lexeme.isComment]
    split <;> rfl

/-- Only comments are read as such in code, and nothing as white space. -/
theorem comment?_of_code {chars : List Char} {lexeme : Lexeme} (found : code chars = some lexeme)
    (isSpace : lexeme.isSpace = true) : comment? chars = some lexeme := by
  cases form_of_code found with
  | comment comment => exact comment
  | word word =>
    rw [isSpace_of_word? word] at isSpace
    contradiction
  | sign _ _ form =>
    cases form with
    | number number =>
      rw [isSpace_of_number? number] at isSpace
      contradiction
    | character | quotes | quote | mark | stray => contradiction

/-- Nothing is read as white space or a comment in a string. -/
theorem isSpace_of_inString {quotes : String} {chars : List Char} {lexeme : Lexeme}
    (found : inString quotes chars = some lexeme) : lexeme.isSpace = false := by
  cases form_of_inString found with
  | closing | embedding | escape => rfl
  | fragment isFragment => rcases isFragment with rfl | rfl <;> rfl

/-- A comment between tokens starts with a slash: it is not read in a string. -/
theorem slash_of_next? {modes : List Mode} {chars : List Char} {lexeme : Lexeme}
    (found : next? modes chars = some lexeme) (isComment : lexeme.isComment = true) :
    lexeme.chars.head? = some '/' := by
  have isSpace : lexeme.isSpace = true := Bool.or_eq_true_iff.mpr (.inr isComment)
  unfold next? at found
  split at found
  · rw [isSpace_of_inString found] at isSpace
    contradiction
  · dsimp only at found
    split at found
    · exact (slash_of_comment? (comment?_of_code found isSpace)).2
    · obtain rfl := Option.some.inj found
      contradiction

/-- The comments between the tokens of characters start with a slash if those collected do. -/
theorem Tokenizes.slash {modes : List Mode} {offset index : Nat} {gap : String}
    {before : List Node} {chars : List Char} {tokens : List Token}
    (tokenizes : Tokenizes modes offset index gap before chars tokens)
    (collected : ∀ node ∈ before, StartsWithSlash node.text) :
    ∀ token ∈ tokens, ∀ node ∈ token.before, StartsWithSlash node.text := by
  induction tokenizes with
  | finish => exact List.forall_mem_singleton.mpr collected
  | space _ _ _ ih => exact ih collected
  | @comment _ _ _ _ _ _ lexeme _ _ next sort kind _ ih =>
    have isComment : lexeme.isComment = true := by
      rcases kind with rfl | rfl <;> simp [Lexeme.isComment, sort]
    refine ih (List.forall_mem_append.mpr ⟨collected, List.forall_mem_singleton.mpr ?_⟩)
    simpa [StartsWithSlash, Node.text] using slash_of_next? next isComment
  | token _ _ _ ih => exact List.forall_mem_cons.mpr ⟨collected, ih (by simp)⟩

/-- The comments between the tokens of a source start with a slash. -/
theorem tokenize_slash (source : String) :
    ∀ token ∈ tokenize source, ∀ node ∈ token.before, StartsWithSlash node.text := by
  unfold tokenize
  split <;> exact tokenizes.slash (by simp)

end Lexer

/-- What is known of each token of a source and of the comments in front of it. -/
structure Token.Genuine (token : Token) : Prop where
  sound : token.Sound
  slash : ∀ node ∈ token.before, StartsWithSlash node.text

/-- The pieces of a mark that is taken apart are as genuine as the mark. -/
theorem Token.Genuine.of_splitClosing? {token bracket : Token} {left : List Token}
    (genuine : token.Genuine) (split : token.splitClosing? = some (bracket, left)) :
    bracket.Genuine ∧ ∀ token ∈ left, token.Genuine := by
  have parts := genuine.sound.of_splitClosing? split
  obtain ⟨_, rest, _, rfl, rfl⟩ := Token.splitClosing?_eq_some genuine.sound split
  refine ⟨⟨parts.1, genuine.slash⟩, fun part inside => ⟨parts.2 part inside, ?_⟩⟩
  split at inside
  · contradiction
  · obtain rfl := List.mem_singleton.mp inside
    simp

/-! ## Origins -/

namespace Rule

variable {π : Type} {grammar : π → Rule π}

/-- The construct that a rule makes of a token. -/
def token? : Rule π → Option Construct
  | .leaf construct _ => Option.some construct
  | .name construct _ => Option.some construct
  | .literal construct => Option.some construct
  | _ => Option.none

/-- Whether a rule makes a node that is a construct. -/
def makes : Rule π → Bool
  | .leaf .. => true
  | .name .. => true
  | .literal .. => true
  | .node .. => true
  | .grow .. => true
  | _ => false

/-- Whether a rule belongs to a grammar. -/
def Belongs (grammar : π → Rule π) (rule : Rule π) : Prop := ∃ which, rule ∈ (grammar which).within

/-- What a node was read by. -/
inductive Origin (grammar : π → Rule π) : Node → Prop
  /-- A comment lies between tokens. -/
  | comment {node : Node} (bare : node.isComment = true) (childless : node.children = [])
    (slash : StartsWithSlash node.text) : Origin grammar node
  /-- A keyword or a mark is spelled as the rule asks. -/
  | mark {node : Node} {text : String} (kind : node.kind = .mark text)
    (childless : node.children = []) (spelled : node.text = text) : Origin grammar node
  /-- A token is a construct by itself, spelled as the rule asks. -/
  | token {node : Node} {rule : Rule π} {construct : Construct} (belongs : Belongs grammar rule)
    (asked : rule.token? = Option.some construct) (kind : node.kind = .construct construct)
    (childless : node.children = [])
    (spelled : ∀ text, rule = .leaf construct text → node.text = text) : Origin grammar node
  /-- A construct is put around what a rule reads. -/
  | node {node : Node} {construct : Construct} {rule : Rule π} {tokens rest : List Token}
    {nodes : List Node} (belongs : Belongs grammar (.node construct rule))
    (reads : Reads grammar rule tokens nodes rest) (genuine : ∀ token ∈ tokens, token.Genuine)
    (kind : node.kind = .construct construct)
    (children : node.children = nodes.dropWhile Node.isExtra) : Origin grammar node
  /-- A node grows together with what follows it. -/
  | growth {node : Node} {seed : Rule π} {growths : List (Growth (Rule π))}
    {growth : Growth (Rule π)} {tokens middle rest : List Token} {nodes tail : List Node}
    (belongs : Belongs grammar (.grow seed growths)) (applies : growth ∈ growths)
    (base : Reads grammar (.grow seed growths) tokens nodes middle)
    (later : Reads grammar growth.tail middle tail rest)
    (genuine : ∀ token ∈ tokens, token.Genuine)
    (kind : node.kind = .construct growth.construct)
    (children : node.children = (growth.base nodes ++ tail).dropWhile Node.isExtra)
    (onto : (leadingConstruct? nodes).any growth.onto = true) : Origin grammar node

/-- What a node was read by does not depend on its role. -/
theorem Origin.withRole {node : Node} (origin : Origin grammar node) (role : Option Role) :
    Origin grammar (node.withRole role) := by
  have text : (node.withRole role).text = node.text := by simp
  cases origin with
  | comment bare childless slash => exact .comment (by simpa) (by simpa) (by rwa [text])
  | mark kind childless spelled => exact .mark (by simpa) (by simpa) (by rwa [text])
  | token belongs asked kind childless spelled =>
    exact .token belongs asked (by simpa) (by simpa) (by rwa [text])
  | node belongs reads genuine kind children =>
    exact .node belongs reads genuine (by simpa) (by simpa)
  | growth belongs applies base later genuine kind children onto =>
    exact .growth belongs applies base later genuine (by simpa) (by simpa) onto

/-- How a construct was made: the ways of `Origin` that make one, told by the rule. -/
inductive Built (grammar : π → Rule π) (construct : Construct) (node : Node) : Prop
  /-- A comment lies between tokens. -/
  | comment (listed : construct ∈ [Construct.lineComment, .blockComment])
    (childless : node.children = []) (slash : StartsWithSlash node.text) :
    Built grammar construct node
  /-- A keyword or a mark is a construct by itself. -/
  | leaf {text : String} (belongs : Belongs grammar (.leaf construct text))
    (childless : node.children = []) (spelled : node.text = text) : Built grammar construct node
  /-- A word is a name. -/
  | name {reserved : List String} (belongs : Belongs grammar (.name construct reserved))
    (childless : node.children = []) : Built grammar construct node
  /-- A number, a character or a piece of a string is a construct by itself. -/
  | literal (belongs : Belongs grammar (.literal construct)) (childless : node.children = []) :
    Built grammar construct node
  /-- A construct is put around what a rule reads. -/
  | node {rule : Rule π} {tokens rest : List Token} {nodes : List Node}
    (belongs : Belongs grammar (.node construct rule)) (reads : Reads grammar rule tokens nodes rest)
    (genuine : ∀ token ∈ tokens, token.Genuine)
    (children : node.children = nodes.dropWhile Node.isExtra) : Built grammar construct node
  /-- A construct grows from a node. -/
  | growth {seed : Rule π} {growths : List (Growth (Rule π))} {growth : Growth (Rule π)}
    {tokens middle rest : List Token} {nodes tail : List Node}
    (belongs : Belongs grammar (.grow seed growths)) (applies : growth ∈ growths)
    (makes : growth.construct = construct)
    (base : Reads grammar (.grow seed growths) tokens nodes middle)
    (later : Reads grammar growth.tail middle tail rest)
    (genuine : ∀ token ∈ tokens, token.Genuine)
    (children : node.children = (growth.base nodes ++ tail).dropWhile Node.isExtra)
    (onto : (leadingConstruct? nodes).any growth.onto = true) : Built grammar construct node

/-- A node that is a construct was made as one. -/
theorem Origin.built {node : Node} (origin : Origin grammar node) {construct : Construct}
    (kind : node.kind = .construct construct) : Built grammar construct node := by
  cases origin with
  | comment bare childless slash =>
    obtain ⟨comment, listed, same⟩ := Node.isAny_iff.mp bare
    obtain rfl := Kind.construct.inj (kind.symm.trans same)
    exact .comment listed childless slash
  | mark other => cases kind.symm.trans other
  | @token rule _ belongs asked itself childless spelled =>
    obtain rfl := Kind.construct.inj (kind.symm.trans itself)
    cases rule with
    | leaf =>
      obtain rfl := Option.some.inj asked
      exact .leaf belongs childless (spelled _ rfl)
    | name =>
      obtain rfl := Option.some.inj asked
      exact .name belongs childless
    | literal =>
      obtain rfl := Option.some.inj asked
      exact .literal belongs childless
    | _ => contradiction
  | node belongs reads genuine itself children =>
    obtain rfl := Kind.construct.inj (kind.symm.trans itself)
    exact .node belongs reads genuine children
  | growth belongs applies base later genuine itself children onto =>
    exact .growth belongs applies (Kind.construct.inj (itself.symm.trans kind)) base later genuine
      children onto

/-- A token that spells a keyword or a mark has its text. -/
theorem text_of_spells {token : Token} {text : String} (sound : token.Sound)
    (spells : token.spells text = true) : token.text = text := by
  unfold Token.spells at spells
  split at spells
  · exact eq_of_beq spells
  · exact eq_of_beq spells
  · next spelling supplied => exact absurd supplied (sound.found spelling)
  · contradiction

variable {rule : Rule π} {tokens rest : List Token} {nodes : List Node}

/-- The tokens left are genuine if those read were. -/
theorem Reads.genuine_rest (reads : Reads grammar rule tokens nodes rest)
    (genuine : ∀ token ∈ tokens, token.Genuine) : ∀ token ∈ rest, token.Genuine :=
  reads.all_rest (fun _ _ _ own split => (own.of_splitClosing? split).2) genuine

/-- What a rule of a grammar makes has an origin. -/
theorem Forms.origin {node : Node} (forms : Forms grammar Token.Genuine rule node)
    (belongs : rule.makes = true → Belongs grammar rule) : Origin grammar node := by
  cases forms with
  | text first spells => exact .mark rfl rfl (text_of_spells first.sound spells)
  | leaf first spells =>
    refine .token (belongs rfl) rfl rfl rfl fun text same => ?_
    obtain ⟨-, rfl⟩ := leaf.inj same
    exact text_of_spells first.sound spells
  | name first isName => exact .token (belongs rfl) rfl rfl rfl (by simp)
  | literal first sort => exact .token (belongs rfl) rfl rfl rfl (by simp)
  | closing first split =>
    obtain ⟨_, _, _, rfl, _⟩ := Token.splitClosing?_eq_some first.sound split
    exact .mark rfl rfl rfl
  | node all body => exact .node (belongs rfl) body all rfl rfl
  | growth all applies base onto later =>
    exact .growth (belongs rfl) applies base later all rfl rfl onto

/-- Every node of a derivation has an origin. -/
theorem Reads.origin (reads : Reads grammar rule tokens nodes rest)
    (genuine : ∀ token ∈ tokens, token.Genuine)
    (here : ∀ inner ∈ rule.within, inner.makes = true → Belongs grammar inner) :
    ∀ node ∈ nodes, node.Everywhere (Origin grammar) :=
  reads.everywhere_of_forms
    ⟨fun _ own => own.sound, fun _ _ _ => Token.Genuine.of_splitClosing?⟩
    (fun _ origin => origin.withRole)
    (fun _ own comment inside => .comment (own.sound.comments comment inside).isComment
      (own.sound.comments comment inside).childless (own.slash comment inside))
    (fun which _ inside _ forms => forms.origin fun _ => ⟨which, inside⟩) genuine
    fun inner inside _ forms => forms.origin (here inner inside)

end Rule

/-! ## Sources -/

namespace Node

/-- What holds everywhere in a node holds of its leaves. -/
theorem Everywhere.leaves {holds : Node → Prop} {node : Node} (everywhere : node.Everywhere holds) :
    ∀ leaf ∈ node.leaves, holds leaf := by
  induction everywhere with
  | @intro node here inside ih =>
    cases node with
    | leaf => exact List.forall_mem_singleton.mpr here
    | branch kind role span children =>
      rw [Node.leaves, leavesAll_eq]
      intro leaf listed
      obtain ⟨child, below, listed⟩ := List.mem_flatMap.mp listed
      exact ih child below leaf listed

end Node

namespace Grammar

/-- What a regular rule makes of a token is no extra. -/
theorem essential_of_token {rule : Grammar.Rule} (checked : regular rule = true)
    {construct : Construct} (asked : rule.token? = some construct) :
    construct.isEssential = true := by
  cases rule with
  | leaf own _ | literal own =>
    obtain rfl := Option.some.inj asked
    simp only [regular, Bool.not_eq_true', List.contains_eq_mem, List.mem_append,
      decide_eq_false_iff_not, not_or] at checked
    simpa [Construct.isEssential] using checked.1.2
  | name own _ =>
    obtain rfl := Option.some.inj asked
    have apart : ∀ construct ∈ nameConstructs, construct.isEssential = true := by decide
    exact apart own (List.contains_iff_mem.mp checked)
  | _ => contradiction

/-- The construct of a regular shape is no extra. -/
theorem essential_of_shape {shape : Shape} (checked : regularShape shape = true) :
    shape.construct.isEssential = true := by
  simp only [regularShape, Bool.and_eq_true, Bool.not_eq_true', List.contains_eq_mem,
    List.mem_append, decide_eq_false_iff_not, not_or] at checked
  simpa [Construct.isEssential] using checked.1.1.1.1.2

/-- A construct that a regular rule puts around others is no extra. -/
theorem essential_of_node {construct : Construct} {rule : Grammar.Rule}
    (checked : regular (.node construct rule) = true) : construct.isEssential = true :=
  essential_of_shape (List.all_eq_true.mp checked _ (List.mem_singleton_self _))

/-- What a node grows into by a regular rule is no extra. -/
theorem essential_of_growth {seed : Grammar.Rule} {growths : List (Growth Grammar.Rule)}
    (checked : regular (.grow seed growths) = true) {growth : Growth Grammar.Rule}
    (applies : growth ∈ growths) : growth.construct.isEssential = true :=
  essential_of_shape (List.all_eq_true.mp checked _ (List.mem_map_of_mem applies))

/-- The rules of the grammar make no comments. -/
theorem slash_of_origin {node : Node} (origin : Rule.Origin rules node)
    (isComment : node.isComment = true) : node.children = [] ∧ StartsWithSlash node.text := by
  obtain ⟨construct, _, kind⟩ := Node.isAny_iff.mp isComment
  have other (essential : construct.isEssential = true) : False := by
    have meant := Node.isExtra_eq_false kind essential
    simp [Node.isExtra, isComment] at meant
  cases origin.built kind with
  | comment _ childless slash => exact ⟨childless, slash⟩
  | leaf belongs | name belongs | literal belongs =>
    obtain ⟨which, inside⟩ := belongs
    exact (other (essential_of_token (regular_rules which _ inside) rfl)).elim
  | node belongs =>
    obtain ⟨which, inside⟩ := belongs
    exact (other (essential_of_node (regular_rules which _ inside))).elim
  | growth belongs applies makes =>
    obtain ⟨which, inside⟩ := belongs
    have essential := essential_of_growth (regular_rules which _ inside) applies
    exact (other (makes ▸ essential)).elim

/-- The rule of a file makes no construct by itself. -/
theorem makes_file {inner : Grammar.Rule} (inside : inner ∈ file.within) : inner.makes = false := by
  rcases mem_within_file.mp inside with rfl | rfl | rfl | rfl <;> rfl

/-- Every node of a source that is read without a repair, other than the whole file, has an
origin. -/
theorem origin_parse {source : String} (accepted : accepts source = true) :
    ∀ child ∈ (parse source).children, child.Everywhere (Rule.Origin rules) := by
  obtain ⟨nodes, rest, reads, same⟩ := exists_reads accepted
  have genuine : ∀ token ∈ Lexer.tokenize source, token.Genuine := fun token inside =>
    ⟨Lexer.tokenize_sound token inside, Lexer.tokenize_slash source token inside⟩
  rw [same]
  refine reads.origin genuine fun inner inside makes => ?_
  rw [makes_file inside] at makes
  contradiction

/-- All nodes in a place of a source that is read without a repair, other than the whole file, have
an origin. -/
theorem origin_at {source : String} (accepted : accepts source = true) {around place : Place}
    (held : (parse source).Holds around) (below : place ∈ around.children) :
    place.node.Everywhere (Rule.Origin rules) :=
  .below_place (origin_parse accepted) held below

end Grammar

end CaretName
