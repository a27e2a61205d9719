import CaretName.Grammar.Token

/-!
# Grammar rules and how they read

A grammar is data: `Rule` is the type of its right-hand sides, and `Rule.read` reads the front
of a token list by a rule. Choices are ordered, the first alternative that fits is taken, and
what a rule has read is never given back except to try the next alternative of a choice.

Constructs that start with one of their own kind, such as a call on the result of a call, are
read by growing: `Rule.grow` reads a seed and then, as long as one of its growths fits, makes
the node read so far the first child of a larger one.

Comments go to the smallest construct that has tokens on both sides of them. `enclose` sees to
that: it leaves the comments in front of a construct outside.
-/
namespace CaretName

/-- How a node read so far becomes the first child of a larger node. -/
structure Growth (ρ : Type) where
  /-- The constructs that can grow this way. -/
  onto : Construct → Bool
  /-- What the node is to the larger one. -/
  role : Option Role
  /-- The larger node. -/
  construct : Construct
  /-- What follows the node inside the larger one. -/
  tail : ρ

/-- A right-hand side of a grammar whose named rules are `π`. -/
inductive Rule (π : Type) where
  /-- A keyword or a mark. -/
  | text (text : String)
  /-- A keyword or a mark that is a construct by itself. -/
  | leaf (construct : Construct) (text : String)
  /-- A word other than the given ones, read as a name. -/
  | name (construct : Construct) (reserved : List String)
  /-- The bracket that closes type arguments, which may be the first of several in a mark. -/
  | closing
  /-- A number, a character or a piece of a string. -/
  | literal (construct : Construct)
  /-- The end of the source. -/
  | finish
  /-- The named rule of the grammar. -/
  | part (part : π)
  /-- One rule after another. -/
  | seq (rules : List (Rule π))
  /-- The first rule that fits. -/
  | choice (rules : List (Rule π))
  /-- The rule as often as it fits. -/
  | many (rule : Rule π)
  /-- Nothing, provided that one of these keywords or marks comes next. -/
  | ahead (texts : List String)
  /-- A construct of its own around what the rule reads. -/
  | node (construct : Construct) (rule : Rule π)
  /-- What the rule reads, in a role. -/
  | field (role : Role) (rule : Rule π)
  /-- What the rule reads, provided that it is one of these constructs. -/
  | only (constructs : List Construct) (rule : Rule π)
  /-- A seed and whatever it grows into. -/
  | grow (seed : Rule π) (growths : List (Growth (Rule π)))

namespace Rule

variable {π : Type}

instance : Coe String (Rule π) := ⟨Rule.text⟩

/-- The rule or nothing. -/
def optional (rule : Rule π) : Rule π := choice [rule, seq []]

/-- The rule once or more. -/
def some (rule : Rule π) : Rule π := seq [rule, many rule]

/-- The rule once or more, with a mark between. -/
def separated (mark : String) (rule : Rule π) : Rule π :=
  seq [rule, many (seq [text mark, rule])]

/-- The rule any number of times, with commas between. -/
def commas (rule : Rule π) : Rule π := optional (separated "," rule)

end Rule

/-- What reading by a rule comes to. -/
inductive Reading where
  /-- The nodes read, the tokens left, and the furthest token that was looked at in vain. -/
  | done (nodes : List Node) (rest : List Token) (reach : Nat)
  /-- Nothing fits; the furthest token that was looked at in vain. -/
  | stuck (reach : Nat)

namespace Reading

/-- The same reading, having looked at a token in vain before. -/
def having (reach : Nat) : Reading → Reading
  | done nodes rest reached => .done nodes rest (max reach reached)
  | stuck reached => .stuck (max reach reached)

/-- The same reading after nodes that were read before. -/
def after (nodes : List Node) : Reading → Reading
  | done more rest reach => .done (nodes ++ more) rest reach
  | stuck reach => .stuck reach

/-- The same reading with its nodes changed. -/
def map (change : List Node → List Node) : Reading → Reading
  | done nodes rest reach => .done (change nodes) rest reach
  | stuck reach => .stuck reach

variable {ρ : Type}

/-- Read by one rule after another. -/
def inTurn (read : ρ → List Token → Reading) : List ρ → List Token → Reading
  | [], tokens => .done [] tokens 0
  | rule :: rules, tokens =>
    match read rule tokens with
    | .done nodes rest reach => ((inTurn read rules rest).after nodes).having reach
    | .stuck reach => .stuck reach

/-- Read by the first rule that fits. -/
def byFirst (read : ρ → Reading) : List ρ → Reading
  | [] => .stuck 0
  | rule :: rules =>
    match read rule with
    | .done nodes rest reach => .done nodes rest reach
    | .stuck reach => (byFirst read rules).having reach

end Reading

/-- A construct around nodes, with the comments in front of its first token left outside. -/
def enclose (construct : Construct) (nodes : List Node) : List Node :=
  let outside := nodes.takeWhile Node.isExtra
  let inside := nodes.dropWhile Node.isExtra
  match inside.head?, inside.getLast? with
  | some first, some last =>
    outside ++ [.branch (.construct construct) none ⟨first.start, last.stop⟩ inside]
  | _, _ => outside

/-- Nodes that have no role yet put into one; comments have none. -/
def inRole (role : Role) (nodes : List Node) : List Node :=
  nodes.map fun node =>
    if node.isExtra || node.role.isSome then node else node.withRole (some role)

/-- The first construct among nodes, comments aside. -/
def leadingConstruct? (nodes : List Node) : Option Construct :=
  match nodes.find? (!·.isExtra) with
  | some node =>
    match node.kind with
    | .construct construct => some construct
    | .mark _ => none
  | none => none

namespace Growth

variable {ρ : Type}

/-- The larger node: nodes read so far, and what follows them. -/
def apply (growth : Growth ρ) (nodes tail : List Node) : List Node :=
  let base := match growth.role with
    | some role => inRole role nodes
    | none => nodes
  enclose growth.construct (base ++ tail)

/-- Read what follows a construct by the first growth that fits, and make the larger node. -/
def byFirst (read : ρ → Reading) (construct : Construct) (nodes : List Node) :
    List (Growth ρ) → Reading
  | [] => .stuck 0
  | growth :: growths =>
    if growth.onto construct then
      match read growth.tail with
      | .done tail rest reach => .done (growth.apply nodes tail) rest reach
      | .stuck reach => (byFirst read construct nodes growths).having reach
    else byFirst read construct nodes growths

end Growth

/-- The bracket at the front of a mark that starts with one, and what is left of the mark. -/
def Token.splitClosing? (token : Token) : Option (Token × List Token) :=
  match token.sort, token.text.toList with
  | .supplied ">", _ => some (token, [])
  | .mark, '>' :: rest =>
    some ({ token with text := ">" },
      if rest.isEmpty then []
      else [{ token with
        text := String.ofList rest, start := token.start + 1, gap := "", before := [] }])
  | _, _ => none

namespace Rule

variable {π : Type}

mutual

/-- Read the front of a token list by a rule. Fuel bounds the depth of rules within rules and
the number of repetitions. -/
def read (grammar : π → Rule π) : Nat → Rule π → List Token → Reading
  | 0, _, _ => .stuck 0
  | _, _, [] => .stuck 0
  | fuel + 1, rule, token :: rest =>
    match rule with
    | .text spelling =>
      if token.spells spelling then .done (token.nodes (.mark spelling)) rest 0
      else .stuck token.index
    | .leaf construct spelling =>
      if token.spells spelling then .done (token.nodes (.construct construct)) rest 0
      else .stuck token.index
    | .name construct reserved =>
      if token.isName reserved then
        .done (token.nodes (.construct construct)) rest 0
      else .stuck token.index
    | .closing =>
      match token.splitClosing? with
      | .some (bracket, left) => .done (bracket.nodes (.mark ">")) (left ++ rest) 0
      | .none => .stuck token.index
    | .literal construct =>
      if token.sort == .literal construct then
        .done (token.nodes (.construct construct)) rest 0
      else .stuck token.index
    | .finish =>
      if token.sort == .finish then .done token.before [token] 0 else .stuck token.index
    | .part which => read grammar fuel (grammar which) (token :: rest)
    | .seq rules => Reading.inTurn (fun rule tokens => read grammar fuel rule tokens) rules
      (token :: rest)
    | .choice rules => Reading.byFirst (fun rule => read grammar fuel rule (token :: rest)) rules
    | .many rule =>
      match read grammar fuel rule (token :: rest) with
      | .done nodes left reach =>
        ((read grammar fuel (.many rule) left).after nodes).having reach
      | .stuck reach => .done [] (token :: rest) reach
    | .ahead texts =>
      if texts.any token.spells then .done [] (token :: rest) 0 else .stuck token.index
    | .node construct rule =>
      (read grammar fuel rule (token :: rest)).map (enclose construct)
    | .field role rule => (read grammar fuel rule (token :: rest)).map (inRole role)
    | .only constructs rule =>
      match read grammar fuel rule (token :: rest) with
      | .done nodes left reach =>
        if (leadingConstruct? nodes).any constructs.contains then .done nodes left reach
        else .stuck (max reach token.index)
      | .stuck reach => .stuck reach
    | .grow seed growths =>
      match read grammar fuel seed (token :: rest) with
      | .done nodes left reach => (grown grammar fuel growths nodes left).having reach
      | .stuck reach => .stuck reach

/-- Let a node that was read grow for as long as one of the growths fits. -/
def grown (grammar : π → Rule π) :
    Nat → List (Growth (Rule π)) → List Node → List Token → Reading
  | 0, _, nodes, tokens => .done nodes tokens 0
  | fuel + 1, growths, nodes, tokens =>
    match leadingConstruct? nodes with
    | .none => .done nodes tokens 0
    | .some construct =>
      match Growth.byFirst (fun rule => read grammar fuel rule tokens) construct nodes growths with
      | .done larger left reach => (grown grammar fuel growths larger left).having reach
      | .stuck reach => .done nodes tokens reach

end

end Rule

end CaretName
