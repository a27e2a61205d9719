import CaretName.Proofs.Grammar.Contents
import CaretName.Proofs.Grammar.Origin

/-!
# Dotted names outside types and expressions

Packages, imports, modules and annotations are named by identifiers with dots between. The rules of
the grammar say what such a name is made of, comments aside: a shorter name, a dot and an
identifier. They also say that the declaration of a package and an import hold exactly one name.
-/
namespace CaretName

namespace Grammar

/-- Constructs that are dotted names outside types and expressions. -/
def pathConstructs : List Construct := [.scopedIdentifier, .identifier]

/-- Constructs that stand in the header of a file. -/
def headerConstructs : List Construct := [.packageDeclaration, .importDeclaration]

/-- Whether a rule always reads one dotted name. -/
def readsPath (rule : Grammar.Rule) : Bool :=
  match rule.order known with
  | some [sights] => sights.all fun sight =>
      (pathConstructs.map Look.construct).contains sight.look
  | _ => false

/-- Whether a rule never reads a dotted name. -/
def passesPaths (rule : Grammar.Rule) : Bool :=
  (rule.sights known).all fun sight =>
    match sight.look with
    | .any => false
    | .mark => true
    | .construct construct => !pathConstructs.contains construct

/-- Whether of several rules in turn just one reads a dotted name. -/
def readsOnePath : Grammar.Rule → Bool
  | .seq rules =>
    rules.countP readsPath == 1 && rules.all fun rule => readsPath rule || passesPaths rule
  | _ => false

/-- Whether a rule reads a dot and an identifier. -/
def readsSegment : Grammar.Rule → Bool
  | .seq [.text ".", .field .name (.name .identifier _)] => true
  | _ => false

/-- Whether a rule makes dotted names, and what stands in the header of a file, only in the way
that is expected. -/
def headed : Grammar.Rule → Bool
  | .leaf construct _ | .name construct _ | .literal construct =>
    !(.scopedIdentifier :: headerConstructs).contains construct
  | .node construct rule =>
    construct != .scopedIdentifier &&
      (!headerConstructs.contains construct || readsOnePath rule)
  | .grow seed growths => growths.all fun growth =>
    !headerConstructs.contains growth.construct &&
      (growth.construct != .scopedIdentifier ||
        readsPath (.grow seed growths) && readsSegment growth.tail)
  | _ => true

/-- Operands and operators make no dotted names and nothing in the header of a file. -/
theorem headed_expression (arrow : Bool) : (operand arrow).within.all headed = true ∧
    ((operatorGrowths arrow).map (·.2)).all (fun growth =>
      !(.scopedIdentifier :: headerConstructs).contains growth.construct &&
        growth.tail.within.all headed) = true := by
  cases arrow <;> decide +kernel

/-- All rules of the grammar make dotted names and the header of a file as expected. -/
theorem headed_rules : ∀ which, ∀ inner ∈ (rules which).within, headed inner = true := by
  refine all_within_rules headed_expression (fun floor arrow growths => ?_) (by decide +kernel)
  rw [expressionAbove, headed, List.all_eq_true]
  intro growth applies
  have checked := growths growth applies
  simp only [Bool.not_eq_true', List.contains_eq_mem, decide_eq_false_iff_not, List.mem_cons,
    not_or] at checked
  simp [checked]

/-- What a rule of the grammar is known to make. -/
theorem headed_of_belongs {rule : Grammar.Rule} (belongs : Rule.Belongs rules rule) :
    headed rule = true := by
  obtain ⟨which, inside⟩ := belongs
  exact headed_rules which rule inside

end Grammar

open Grammar

/-! ## Names that are read -/

variable {rule : Grammar.Rule} {tokens rest : List Token} {nodes : List Node}

/-- The dotted names among nodes. -/
def Node.paths (nodes : List Node) : List Node := nodes.filter (·.isAny pathConstructs)

namespace Node

/-- The dotted names among more nodes follow those among the first ones. -/
theorem paths_append (nodes more : List Node) : paths (nodes ++ more) = paths nodes ++ paths more :=
  List.filter_append ..

/-- Dotted names are essential. -/
theorem isExtra_of_path {node : Node} (path : node.isAny pathConstructs = true) :
    node.isExtra = false := by
  obtain ⟨construct, listed, kind⟩ := isAny_iff.mp path
  refine isExtra_eq_false kind ?_
  simp only [pathConstructs, List.mem_cons, List.not_mem_nil, or_false] at listed
  rcases listed with rfl | rfl <;> rfl

/-- The dotted names among nodes are among the essential ones. -/
theorem paths_essentials (nodes : List Node) : paths (essentials nodes) = paths nodes := by
  rw [paths, essentials, List.filter_filter]
  refine List.filter_congr fun node _ => ?_
  cases path : node.isAny pathConstructs with
  | true => simp [isExtra_of_path path]
  | false => rfl

/-- Leaving out extra nodes in front leaves the dotted names. -/
theorem paths_dropWhile (nodes : List Node) : paths (nodes.dropWhile isExtra) = paths nodes := by
  rw [← paths_essentials, essentials_dropWhile, paths_essentials]

/-- A single node stays single as the base of a larger one. -/
theorem essentials_base {ρ : Type} (growth : Growth ρ) {nodes : List Node} {node : Node}
    (single : essentials nodes = [node]) :
    ∃ base, essentials (growth.base nodes) = [base] ∧ base.kind = node.kind := by
  unfold Growth.base
  cases growth.role with
  | none => exact ⟨node, single, rfl⟩
  | some role =>
    show ∃ base, essentials (inRole role nodes) = [base] ∧ base.kind = node.kind
    rw [essentials_inRole, single, inRole, List.map_singleton]
    split
    · exact ⟨_, rfl, rfl⟩
    · exact ⟨_, rfl, by simp⟩

end Node

/-- What looks like a dotted name is one. -/
theorem Sight.path_of_fits {sight : Sight} {node : Node} (fits : sight.Fits node)
    (path : (pathConstructs.map Look.construct).contains sight.look = true) :
    node.isAny pathConstructs = true := by
  obtain ⟨construct, listed, look⟩ := List.mem_map.mp (List.contains_iff_mem.mp path)
  have kind := fits.1
  rw [← look] at kind
  exact Node.isAny_iff.mpr ⟨construct, listed, kind⟩

namespace Rule.Reads

/-- A rule that reads one dotted name reads nothing else but comments. -/
theorem path (reads : Reads rules rule tokens nodes rest) (sound : ∀ token ∈ tokens, token.Sound)
    (isPath : readsPath rule = true) :
    ∃ name, name.isAny pathConstructs = true ∧ Node.essentials nodes = [name] := by
  unfold readsPath at isPath
  split at isPath
  · next sights order =>
    have matched := reads.inOrder knows_known sound _ order
    obtain ⟨name, _, ⟨sight, listed, fits⟩, none, single⟩ := List.forall₂_cons_left_iff.mp matched
    obtain rfl := List.forall₂_nil_left_iff.mp none
    exact ⟨name, Sight.path_of_fits fits (List.all_eq_true.mp isPath sight listed), single⟩
  · contradiction

/-- A rule that reads no dotted name makes none. -/
theorem passes (reads : Reads rules rule tokens nodes rest)
    (sound : ∀ token ∈ tokens, token.Sound) (passes : passesPaths rule = true) :
    Node.paths nodes = [] := by
  refine List.filter_eq_nil_iff.mpr fun node inside path => ?_
  rcases reads.cover knows_known sound node inside with ⟨extra, _⟩ | ⟨_, sight, listed, fits⟩
  · rw [Node.isExtra_of_path path] at extra
    contradiction
  · have other := List.all_eq_true.mp passes sight listed
    obtain ⟨construct, among, kind⟩ := Node.isAny_iff.mp path
    have look := fits.1
    cases looks : sight.look with
    | any => rw [looks] at other; contradiction
    | mark =>
      rw [looks, kind] at look
      obtain ⟨_, same⟩ := look
      contradiction
    | construct own =>
      rw [looks, kind] at look
      obtain rfl := Kind.construct.inj look
      simp [looks, among] at other

/-- Rules in turn read as many dotted names as there are rules that read one. -/
theorem length_paths {rules' : List Grammar.Rule}
    (reads : Reads rules (.seq rules') tokens nodes rest)
    (sound : ∀ token ∈ tokens, token.Sound)
    (each : ∀ rule ∈ rules', readsPath rule = true ∨ passesPaths rule = true) :
    (Node.paths nodes).length = rules'.countP readsPath := by
  induction rules' generalizing tokens nodes with
  | nil =>
    cases reads
    rfl
  | cons rule others ih =>
    cases reads with
    | @seqCons _ _ _ middle _ front back first later =>
      have after := ih later (first.sound_rest sound) fun rule inside =>
        each rule (List.mem_cons_of_mem _ inside)
      rw [Node.paths_append, List.length_append, after, List.countP_cons]
      by_cases isPath : readsPath rule = true
      · obtain ⟨name, path, single⟩ := first.path sound isPath
        have one : Node.paths front = [name] := by
          rw [← Node.paths_essentials, single]
          simp [Node.paths, path]
        rw [one, if_pos isPath]
        exact Nat.add_comm _ _
      · have passes := (each rule List.mem_cons_self).resolve_left isPath
        rw [first.passes sound passes, if_neg isPath]
        exact Nat.zero_add _

/-- A rule that reads one dotted name among others makes one. -/
theorem onePath (reads : Reads rules rule tokens nodes rest)
    (sound : ∀ token ∈ tokens, token.Sound) (one : readsOnePath rule = true) :
    ∃ name, Node.paths nodes = [name] := by
  unfold readsOnePath at one
  split at one
  · simp only [Bool.and_eq_true, beq_iff_eq, List.all_eq_true, Bool.or_eq_true] at one
    exact List.length_eq_one_iff.mp ((reads.length_paths sound one.2).trans one.1)
  · contradiction

/-- A rule that reads a dot and an identifier makes them. -/
theorem segment (reads : Reads rules rule tokens nodes rest)
    (sound : ∀ token ∈ tokens, token.Sound) (isSegment : readsSegment rule = true) :
    ∃ dot name, Node.essentials nodes = [dot, name] ∧ dot.kind = .mark "." ∧
      name.is .identifier = true := by
  unfold readsSegment at isSegment
  split at isSegment
  · cases reads with
    | seqCons first later =>
      have behind := first.sound_rest sound
      cases first with
      | @text _ dot _ spells =>
        cases later with
        | seqCons second nothing =>
          cases nothing
          cases second with
          | field body =>
            cases body with
            | @name _ _ token _ isName =>
              have own := behind _ List.mem_cons_self
              have front : Node.essentials (dot.nodes (.mark ".")) = [dot.leaf (.mark ".")] :=
                (sound _ List.mem_cons_self).essentials_nodes rfl
              have back : Node.essentials (token.nodes (.construct .identifier)) =
                  [token.leaf (.construct .identifier)] := own.essentials_nodes rfl
              refine ⟨dot.leaf (.mark "."), (token.leaf (.construct .identifier)).withRole
                (Option.some .name), ?_, rfl, rfl⟩
              rw [List.append_nil, Node.essentials_append, front, Node.essentials_inRole, back]
              rfl
  · contradiction

end Rule.Reads

/-! ## Names in a tree -/

namespace Rule.Origin

variable {node : Node}

/-- A dotted name of several segments is a shorter one, a dot and an identifier. -/
theorem scopedIdentifier (origin : Origin rules node)
    (isScoped : node.is .scopedIdentifier = true) :
    ∃ scope dot name, Node.essentials node.children = [scope, dot, name] ∧
      scope.isAny pathConstructs = true ∧ dot.kind = .mark "." ∧
      name.is .identifier = true := by
  cases origin.built (Node.is_iff.mp isScoped) with
  | comment among => simp at among
  | leaf belongs | name belongs | literal belongs | node belongs =>
    exact absurd (headed_of_belongs belongs) (by simp [headed])
  | @growth seed growths growth _ _ _ nodes tail belongs applies makes base later genuine
      children =>
    have checked := List.all_eq_true.mp (headed_of_belongs belongs) growth applies
    simp only [makes, Bool.and_eq_true, bne_self_eq_false, Bool.false_or] at checked
    obtain ⟨-, isPath, isSegment⟩ := checked
    obtain ⟨scope, path, single⟩ :=
      base.path (fun token inside => (genuine token inside).sound) isPath
    obtain ⟨front, single, kind⟩ := Node.essentials_base growth single
    obtain ⟨dot, name, pair, isDot, isName⟩ :=
      later.segment (fun token inside => (base.genuine_rest genuine token inside).sound) isSegment
    refine ⟨front, dot, name, ?_, ?_, isDot, isName⟩
    · rw [children, Node.essentials_dropWhile, Node.essentials_append, single, pair]
      rfl
    · obtain ⟨construct, listed, own⟩ := Node.isAny_iff.mp path
      exact Node.isAny_iff.mpr ⟨construct, listed, kind.trans own⟩

/-- The declaration of a package and an import hold one dotted name. -/
theorem header (origin : Origin rules node) (declares : node.isAny headerConstructs = true) :
    ∃ name, Node.paths node.children = [name] := by
  obtain ⟨own, listed, itself⟩ := Node.isAny_iff.mp declares
  have isHeader : headerConstructs.contains own = true := List.contains_iff_mem.mpr listed
  cases origin.built itself with
  | comment among =>
    have apart : ∀ construct ∈ headerConstructs,
        construct ∉ [Construct.lineComment, .blockComment] := by decide
    exact absurd among (apart own listed)
  | leaf belongs | name belongs | literal belongs =>
    have checked := headed_of_belongs belongs
    simp [headed, listed] at checked
  | node belongs reads genuine children =>
    have checked := headed_of_belongs belongs
    simp only [headed, isHeader, Bool.not_true, Bool.false_or, Bool.and_eq_true] at checked
    rw [children, Node.paths_dropWhile]
    exact reads.onePath (fun token inside => (genuine token inside).sound) checked.2
  | growth belongs applies makes =>
    obtain rfl := makes
    have checked := List.all_eq_true.mp (headed_of_belongs belongs) _ applies
    simp [listed] at checked

end Rule.Origin

end CaretName
