import CaretName.Grammar.Declarations

/-!
# Repairing a source

A source that does not fit the grammar is changed until it does. Where reading gets stuck, a
mark or a name may be supplied that has no text, or tokens may be set aside: those read last,
or the one that does not fit. Tokens that were set aside become one node of their own, which
may stand anywhere, as comments may.

Each change has a cost, and the changes are tried from the cheapest on. One that does not get
reading past the token that did not fit is dropped, and so is a token that is supplied anywhere
but at the end of a construct.
-/
namespace CaretName.Grammar

/-- Enough fuel to read a number of tokens. -/
def fuelFor (count : Nat) : Nat := 64 * (count + 4)

/-- Read tokens by a rule. -/
def readBy (rule : Grammar.Rule) (tokens : List Token) : Reading :=
  Rule.read rules (fuelFor tokens.length) rule tokens

/-- Read a whole file. -/
def readFile (tokens : List Token) : Reading := readBy (.seq [.many (.part .topLevel), .finish]) tokens

/-! ## What open braces hold -/

/-- What may stand between two braces, or outside all of them. -/
inductive Body where
  | file
  | members
  | code
  deriving DecidableEq, Repr

/-- The braces that are open at a token. -/
structure Nesting where
  /-- What the open braces hold, the innermost first. -/
  bodies : List Body := []
  /-- Whether the declaration of a type has begun and waits for its brace. -/
  announced : Bool := false

namespace Nesting

/-- What may stand here. -/
def body (nesting : Nesting) : Body := nesting.bodies.head?.getD .file

/-- The nesting after a token. -/
def after (nesting : Nesting) (token : Token) : Nesting :=
  if token.spells "\x7b" then
    ⟨(if nesting.announced then .members else .code) :: nesting.bodies, false⟩
  else if token.spells "\x7d" then ⟨nesting.bodies.tail, false⟩
  else if token.spells ";" then ⟨nesting.bodies, false⟩
  else if ["class", "interface", "enum", "record", "@interface"].any token.spells then
    ⟨nesting.bodies, true⟩
  else nesting

/-- The nesting after several tokens. -/
def afterAll (nesting : Nesting) (tokens : List Token) : Nesting := tokens.foldl after nesting

end Nesting

/-! ## Tokens that are set aside -/

/-- What is recognised among tokens that are set aside. -/
def fragment : Body → Grammar.Rule
  | .file => .choice [.part .topLevel, .part .modifiers]
  | .members => .choice [member, .part .modifiers, .part .parameters]
  | .code => .choice [statement, .part .arguments, expression]

/-- What a single token is set aside as. -/
def bareFragment (token : Token) : List Node :=
  match token.sort with
  | .word =>
    if reserved.contains token.text then token.nodes (.mark token.text)
    else token.nodes (.construct .identifier)
  | .literal construct => token.nodes (.construct construct)
  | .stray => token.nodes (.construct .error)
  | .mark => token.nodes (.mark token.text)
  | .supplied spelling => token.nodes (.mark spelling)
  | .finish => token.before

/-- A type in front of a name, and what follows it. -/
def typeOfName? (tokens : List Token) : Option (List Node × List Token) :=
  match readBy (.part .plainType) tokens with
  | .done nodes rest _ => if rest.head?.any (·.isName reserved) then some (nodes, rest) else none
  | .stuck _ => none

/-- The largest piece that is recognised at the front of tokens, and what follows it. -/
def firstFragment (nesting : Nesting) (token : Token) (rest : List Token) :
    List Node × List Token :=
  match readBy (fragment nesting.body) (token :: rest) with
  | .done nodes left _ => if left.length ≤ rest.length then (nodes, left) else (bareFragment token, rest)
  | .stuck _ => (typeOfName? (token :: rest)).getD (bareFragment token, rest)

/-- The pieces that tokens are set aside as. -/
def fragments : Nat → Nesting → List Token → List Node
  | 0, _, _ => []
  | _, _, [] => []
  | fuel + 1, nesting, token :: rest =>
    let (nodes, left) := firstFragment nesting token rest
    let passed := (token :: rest).take (rest.length + 1 - left.length)
    nodes ++ fragments fuel (nesting.afterAll passed) left

/-- One node for everything that was set aside in one place. -/
def joinErrors : List Node → List Node
  | .branch (.construct .error) role first pieces :: rest =>
    match joinErrors rest with
    | .branch (.construct .error) _ second more :: rest =>
      .branch (.construct .error) role ⟨first.start, second.stop⟩ (pieces ++ more) :: rest
    | rest => .branch (.construct .error) role first pieces :: rest
  | node :: rest => node :: joinErrors rest
  | [] => []

/-- The end of a token list, where pieces must end. -/
def finishAfter (tokens : List Token) : Token :=
  let stop := (tokens.getLast?.map (·.span.stop)).getD 0
  ⟨.finish, "", stop, "", [], tokens.length⟩

/-- Tokens as a node of their own. -/
def asError (nesting : Nesting) (tokens : List Token) : List Node :=
  let pieces := fragments (tokens.length + 1) nesting (tokens ++ [finishAfter tokens])
  enclose .error pieces

/-- Count tokens from zero on. -/
def renumber (tokens : List Token) : List Token :=
  tokens.mapIdx fun index token => { token with index }

/-- Set the tokens between two positions aside. -/
def setAside (start stop : Nat) (tokens : List Token) : List Token :=
  let front := tokens.take start
  let aside := (tokens.take stop).drop start
  match tokens.drop stop with
  | [] => tokens
  | next :: rest =>
    let nodes := asError (({} : Nesting).afterAll front) aside
    renumber (front ++ { next with before := joinErrors (nodes ++ next.before) } :: rest)

/-- Supply a mark, or a name where there is no spelling, at a position. -/
def supply (position : Nat) (spelling : String) (tokens : List Token) : List Token :=
  let front := tokens.take position
  let start := (front.getLast?.map (·.span.stop)).getD 0
  renumber (front ++ ⟨.supplied spelling, "", start, "", [], position⟩ :: tokens.drop position)

/-! ## The cost of changes -/

/-- What a change costs at least. -/
def costOfChange : Nat := 500

/-- What supplying a token adds. -/
def costOfSupply : Nat := 110

/-- What setting one tree aside adds. -/
def costOfTree : Nat := 100

/-- What setting a line aside adds. -/
def costOfLine : Nat := 30

/-- How many trees there are at a level of nesting, and how many tokens since the last one that
is complete. -/
structure TreeCount where
  complete : Nat := 0
  pending : Nat := 0

/-- Count one more token. Levels are listed from the innermost. -/
def countTree (levels : List TreeCount) (token : Token) : List TreeCount :=
  match levels with
  | [] => []
  | level :: outer =>
    if token.spells ";" then { complete := level.complete + 1 } :: outer
    else if token.spells "\x7b" then
      {} :: { level with pending := level.pending + 1 } :: outer
    else if token.spells "\x7d" then
      match outer with
      | around :: outer => { complete := around.complete + 1 } :: outer
      | [] => [{ level with pending := level.pending + 1 }]
    else { level with pending := level.pending + 1 } :: outer

/-- How many trees tokens make up, where statements and what stands in braces are complete. -/
def treeCount (tokens : List Token) : Nat :=
  (tokens.foldl countTree [{}]).foldl (fun count level => count + level.complete + level.pending) 0

/-- The cost of setting tokens aside, next to others or not. -/
def asideCost (tokens : List Token) (beside : Bool) : Nat :=
  match tokens.head?, tokens.getLast? with
  | some first, some last =>
    let lines :=
      (tokens.drop 1).foldl (fun count token => count + token.gap.toList.count '\n') 0
    (if beside then 0 else costOfChange) + costOfTree * treeCount tokens +
      (last.span.stop - first.start) + costOfLine * lines
  | _, _ => 0

/-! ## Trying changes -/

/-- A source with changes that have not been made yet. -/
structure Attempt where
  cost : Nat
  /-- The token that reading must get past. -/
  goal : Option Nat
  change : List Token → List Token
  tokens : List Token

/-- The marks that may be supplied; no spelling stands for a name. -/
def supplies : List String := ["", ")", "]", "\x7d", ";", ">"]

/-- Whether tokens have been set aside at a position. -/
def hasErrorAt (tokens : List Token) (position : Nat) : Bool :=
  (tokens[position]?).any fun token => token.before.any (·.is .error)

/-- What may be changed where reading got stuck at a token. -/
def changesAt (cost : Nat) (tokens : List Token) (reach : Nat) : List Attempt :=
  let supplied := supplies.map fun spelling =>
    ⟨cost + costOfChange + costOfSupply, some (reach + 1), supply reach spelling, tokens⟩
  let asides := (List.range reach).map fun start =>
    let aside := (tokens.take reach).drop start
    ⟨cost + asideCost aside (hasErrorAt tokens reach), some start, setAside start reach, tokens⟩
  let skipped :=
    if (tokens[reach]?).any (·.sort != .finish) then
      let aside := (tokens.take (reach + 1)).drop reach
      [⟨cost + asideCost aside (hasErrorAt tokens reach), none, setAside reach (reach + 1), tokens⟩]
    else []
  supplied ++ asides.reverse ++ skipped

/-- Add an attempt to a queue, behind those that cost no more. -/
def enqueue (queue : List Attempt) (attempt : Attempt) : List Attempt :=
  queue.takeWhile (·.cost ≤ attempt.cost) ++ attempt :: queue.dropWhile (·.cost ≤ attempt.cost)

/-- Whether reading that got stuck has got past a token. -/
def Attempt.falls (attempt : Attempt) (reach : Nat) : Bool := attempt.goal.any (reach ≤ ·)

/-- Whether a leaf was supplied. -/
def isSupplied : Node → Bool
  | .leaf _ _ _ _ text => text.isEmpty
  | .branch .. => false

mutual

/-- Whether supplied leaves are only found at the ends of constructs. -/
def suppliesEnds : Node → Bool
  | .leaf .. => true
  | .branch _ _ _ children => !children.dropLast.any isSupplied && suppliesEndsAll children

/-- Whether supplied leaves are only found at the ends of constructs within several nodes. -/
def suppliesEndsAll : List Node → Bool
  | [] => true
  | node :: rest => suppliesEnds node && suppliesEndsAll rest

end

/-- The nodes of the cheapest attempt that works. -/
def mend? : Nat → List Attempt → Option (List Node)
  | 0, _ => none
  | _, [] => none
  | fuel + 1, attempt :: queue =>
    let tokens := attempt.change attempt.tokens
    match readFile tokens with
    | .done nodes _ _ => if suppliesEndsAll nodes then some nodes else mend? fuel queue
    | .stuck reach =>
      if attempt.falls reach then mend? fuel queue
      else mend? fuel ((changesAt attempt.cost tokens reach).foldl enqueue queue)

/-- How many attempts are made. -/
def maxAttempts : Nat := 600

/-- The nodes of a source that has been changed to fit. If that takes too much, all of it is set
aside. -/
def mend (tokens : List Token) : List Node :=
  (mend? maxAttempts [⟨0, none, id, tokens⟩]).getD
    (asError {} tokens.dropLast ++ (tokens.getLast?.map (·.before)).getD [])

end CaretName.Grammar
