import SinosLang.Proofs.Parse.Clocked
import SinosLang.Proofs.Parse.Records
import SinosLang.Proofs.Parse.Soundness

/-!
# Rules that look heights up

Every rule of a parser that looks heights up goes along with the rule of the grammar that carries
them with the trees: what a rule does besides building nodes, it does on the cursor, and the trees
from which it builds a node are recorded when it does.

Main statements: `rule_tracks`, and `program_start` for the parser that is called once.
-/

set_option autoImplicit false

namespace SinosLang

namespace Parser

open Builder (measuring remembering)
open Parse (Rule leafNode?)

section Sequences

variable {limits : Limits} {exact : Prop} {allocator : Allocator} {start memory : Memory}
  {α β β' : Type} {carried : β → β'} {recorded : Memory → β → Prop}

/-- From a later memory it is enough to go along from an earlier one. -/
theorem Follows.mono {action : Action β} {action' : Parse β'}
    (grows : start.Grows limits exact memory)
    (follows : Follows limits exact start carried recorded action action') :
    Follows limits exact memory carried recorded action action' :=
  fun parser keeps further => follows parser keeps (grows.trans further)

/-- Something is done on the cursor first. -/
theorem Follows.behind {action : Parse α} {next : α → Action β} {next' : α → Parse β'}
    (rest : ∀ value, Follows limits exact start carried recorded (next value) (next' value)) :
    Follows limits exact start carried recorded
      ((remembering limits allocator).onCursor action >>= next)
      ((measuring limits).onCursor action >>= next') :=
  (follows_onCursor action).bind fun _ value grows _ => (rest value).mono grows

/-- The rounds of a loop are counted first. -/
theorem Follows.rounds {next : Nat → Action β} {next' : Nat → Parse β'}
    (rest : ∀ rounds,
      Follows limits exact start carried recorded (next rounds) (next' rounds)) :
    Follows limits exact start carried recorded ((remembering limits allocator).rounds >>= next)
      ((measuring limits).rounds >>= next') :=
  (follows_onCursor Parse.budget).bind fun _ rounds grows _ => (rest rounds).mono grows

/-- A node is built from recorded trees at the end. -/
theorem tracks_build {node : Node} {parts : List Placed}
    (children_eq : node.children = parts.map Placed.node)
    (recorded : ∀ part ∈ parts, part.Recorded limits exact start) :
    TracksFrom limits exact start ((remembering limits allocator).build node parts)
      ((measuring limits).build node (parts.map Placed.measured)) :=
  follows_build allocator children_eq recorded

end Sequences

/-- An action for a tree that looks heights up goes along with one that carries them, from any
memory. -/
def Tracks (limits : Limits) (exact : Prop) (action : Action Placed) (action' : Parse Measured) :
    Prop :=
  ∀ start, TracksFrom limits exact start action action'

/-- Trees of which every one is recorded. -/
def AllRecorded (limits : Limits) (exact : Prop) (memory : Memory) (trees : List Placed) : Prop :=
  ∀ tree ∈ trees, tree.Recorded limits exact memory

section Recording

variable {limits : Limits} {exact : Prop} {memory before after : Memory} {tree : Placed}
  {trees : List Placed}

/-- A single recorded tree makes up recorded trees. -/
theorem allRecorded_singleton (recorded : tree.Recorded limits exact memory) :
    AllRecorded limits exact memory [tree] :=
  List.forall_mem_singleton.mpr recorded

/-- Recorded trees stay recorded in the course of a call. -/
theorem AllRecorded.mono (recorded : AllRecorded limits exact before trees)
    (grows : before.Grows limits exact after) : AllRecorded limits exact after trees :=
  fun tree isIn => (recorded tree isIn).mono grows

/-- One more tree, recorded before the others were. -/
theorem AllRecorded.cons (rest : AllRecorded limits exact after trees)
    (first : tree.Recorded limits exact before) (grows : before.Grows limits exact after) :
    AllRecorded limits exact after (tree :: trees) :=
  List.forall_mem_cons.mpr ⟨first.mono grows, rest⟩

/-- The nodes of measured trees are those of the trees. -/
theorem nodes_measured (trees : List Placed) :
    (trees.map Placed.measured).map Measured.node = trees.map Placed.node :=
  List.map_map

/-- The node of an optional measured tree is that of the tree. -/
theorem node?_measured (tree? : Option Placed) :
    (tree?.map Placed.measured).map Measured.node = tree?.map Placed.node :=
  Option.map_map _ _ _

end Recording

section Rules

variable {limits : Limits} {exact : Prop} (allocator : Allocator)
  {expression operand : Action Placed} {expression' operand' : Parse Measured}

section Statements

/-- Bindings track those of the grammar if expressions do. -/
theorem letStatement_tracks (inner : Tracks limits exact expression expression') :
    Tracks limits exact ((remembering limits allocator).letStatement expression)
      (Parse.letStatement limits expression') := by
  intro start
  unfold Parse.letStatement Builder.letStatement
  refine .behind fun keyword => .behind fun binding => .behind fun type? => .behind fun _ => ?_
  refine (inner start).bind fun memory value _ recorded => ?_
  exact .behind fun _ => .behind fun _ =>
    tracks_build rfl (allRecorded_singleton recorded)

/-- A recorded expression becomes a statement as it does in the grammar. -/
theorem expressionStatement_follows {start : Memory} {expr : Placed}
    (recorded : expr.Recorded limits exact start) :
    TracksFrom limits exact start ((remembering limits allocator).expressionStatement expr)
      (Parse.expressionStatement limits expr.measured) := by
  unfold Parse.expressionStatement Builder.expressionStatement
  exact .behind fun _ => .behind fun _ =>
    tracks_build rfl (allRecorded_singleton recorded)

variable (inner : Tracks limits exact expression expression')
include inner

/-- Statements track those of the grammar. -/
theorem statement_tracks : Tracks limits exact ((remembering limits allocator).statement expression)
    (Parse.statement limits expression') := by
  intro start
  unfold Parse.statement Builder.statement
  refine .behind fun token => ?_
  split
  · exact letStatement_tracks allocator inner start
  · exact (inner start).bind fun _ expr _ recorded =>
      expressionStatement_follows allocator recorded

/-- Statements up to the end go along with those of the grammar, whatever the memory. -/
theorem statements_follows (rounds : Nat) (start : Memory) :
    Follows limits exact start (List.map Placed.measured) (AllRecorded limits exact)
      ((remembering limits allocator).statements expression rounds)
      (Parse.statements limits expression' rounds) := by
  induction rounds generalizing start with
  | zero => exact follows_fail _
  | succ rounds ih =>
    unfold Parse.statements Builder.statements
    refine .behind fun token => ?_
    split
    · exact follows_pure fun _ _ => List.forall_mem_nil _
    · refine (statement_tracks allocator inner start).bind fun memory stmt _ first => ?_
      refine (ih memory).bind fun later stmts grows rest => ?_
      exact follows_pure fun _ further => (rest.mono further).cons first (grows.trans further)

end Statements

/-- What a block holds, without the addresses. -/
def measuredItems (items : List Placed × Option Placed) : List Measured × Option Measured :=
  (items.1.map Placed.measured, items.2.map Placed.measured)

/-- What a block holds is recorded. -/
def ItemsRecorded (limits : Limits) (exact : Prop) (memory : Memory)
    (items : List Placed × Option Placed) : Prop :=
  AllRecorded limits exact memory (items.1 ++ items.2.toList)

section Brackets

variable (inner : Tracks limits exact expression expression')
include inner

/-- What a block holds goes along with what it holds in the grammar, whatever the memory. -/
theorem blockItems_follows (rounds : Nat) (start : Memory) :
    Follows limits exact start measuredItems (ItemsRecorded limits exact)
      ((remembering limits allocator).blockItems expression rounds)
      (Parse.blockItems limits expression' rounds) := by
  induction rounds generalizing start with
  | zero => exact follows_fail _
  | succ rounds ih =>
    -- A statement in front of whatever else the block holds.
    have further {memory : Memory} {stmt : Placed}
        (first : stmt.Recorded limits exact memory) :
        Follows limits exact memory measuredItems (ItemsRecorded limits exact)
          (do
            let items ← (remembering limits allocator).blockItems expression rounds
            return (stmt :: items.1, items.2))
          (do
            let items ← Parse.blockItems limits expression' rounds
            return (stmt.measured :: items.1, items.2)) := by
      refine (ih memory).bind fun later items grows rest => ?_
      exact follows_pure fun _ grows' => (rest.mono grows').cons first (grows.trans grows')
    unfold Parse.blockItems Builder.blockItems
    refine .behind fun token => ?_
    dsimp -proj only
    split
    · exact follows_pure fun _ _ => List.forall_mem_nil _
    · split
      · exact (letStatement_tracks allocator inner start).bind fun _ _ _ first =>
          further first
      · refine (inner start).bind fun memory expr _ recorded => .behind fun next => ?_
        split
        · exact follows_pure fun _ grows => allRecorded_singleton (recorded.mono grows)
        · exact (expressionStatement_follows allocator recorded).bind fun _ _ _ first =>
            further first

/-- Blocks track those of the grammar. -/
theorem block_tracks : Tracks limits exact ((remembering limits allocator).block expression)
    (Parse.block limits expression') := by
  intro start
  unfold Parse.block Builder.block
  refine .behind fun opening => .behind fun _ => .rounds fun rounds => ?_
  refine (blockItems_follows allocator inner rounds start).bind fun memory items _ recorded => ?_
  obtain ⟨stmts, last?⟩ := items
  refine .behind fun closing => .behind fun _ => .behind fun span => ?_
  have children_eq : (Node.block span (stmts.map Placed.node) (last?.map Placed.node)).children =
      (stmts ++ last?.toList).map Placed.node := by
    rw [Node.children, Option.toList_map, List.map_append]
  have parts_eq : stmts.map Placed.measured ++ (last?.map Placed.measured).toList =
      (stmts ++ last?.toList).map Placed.measured := by
    rw [Option.toList_map, List.map_append]
  dsimp only [measuredItems]
  rw [nodes_measured, node?_measured, parts_eq]
  exact tracks_build children_eq recorded

/-- Groups track those of the grammar. -/
theorem group_tracks (opening : Token) :
    Tracks limits exact ((remembering limits allocator).group expression opening)
      (Parse.group limits expression' opening) := by
  intro start
  unfold Parse.group Builder.group
  refine .behind fun _ => .behind fun _ => (inner start).bind fun memory held _ recorded => ?_
  exact .behind fun _ => .behind fun _ => .behind fun _ =>
    tracks_build rfl (allRecorded_singleton recorded)

end Brackets

section Operators

variable (leaves : limits.allows 1 = true) (inner : Tracks limits exact expression expression')

include leaves inner in
/-- Primary expressions track those of the grammar. -/
theorem primary_tracks : Tracks limits exact ((remembering limits allocator).primary expression)
    (Parse.primary limits expression') := by
  intro start
  unfold Parse.primary Builder.primary
  refine .behind fun token => ?_
  cases found : leafNode? token with
  | some node =>
    have isLeaf : node.height = 1 := by
      have childless := (@Parse.leafNode?_eq_some (fun _ _ => False) _ _ found).2.1
      rw [Node.height_eq, childless]
      rfl
    exact .behind fun _ => follows_leaf allocator isLeaf leaves
  | none =>
    dsimp only
    split
    · exact block_tracks allocator inner start
    · split
      · exact group_tracks allocator inner token start
      · exact follows_fail _

/-- Prefix operators are put before a recorded operand as they are in the grammar. -/
theorem applyPrefixes_follows {start : Memory} {operand : Placed}
    (recorded : operand.Recorded limits exact start) (ops : List Token) :
    TracksFrom limits exact start ((remembering limits allocator).applyPrefixes operand ops)
      (Parse.applyPrefixes limits operand.measured ops) := by
  induction ops with
  | nil => exact follows_pure fun _ grows => recorded.mono grows
  | cons op ops ih =>
    unfold Parse.applyPrefixes Builder.applyPrefixes
    refine ih.bind fun memory whole _ recorded => ?_
    exact .behind fun _ => tracks_build rfl (allRecorded_singleton recorded)

include leaves inner in
/-- Unary expressions track those of the grammar. -/
theorem unary_tracks : Tracks limits exact ((remembering limits allocator).unary expression)
    (Parse.unary limits expression') := by
  intro start
  unfold Parse.unary Builder.unary
  refine .rounds fun rounds => .behind fun ops => ?_
  exact (primary_tracks allocator leaves inner start).bind fun _ _ _ recorded =>
    applyPrefixes_follows allocator recorded ops

/-- The node of an operator between recorded operands is built as it is in the grammar. -/
theorem binaryNode_follows {start : Memory} {left right : Placed} (op : Token)
    (recorded : AllRecorded limits exact start [left, right]) :
    TracksFrom limits exact start ((remembering limits allocator).binaryNode op left right)
      (Parse.binaryNode limits op left.measured right.measured) := by
  unfold Parse.binaryNode Builder.binaryNode
  exact .behind fun _ => tracks_build rfl recorded

variable {ops : List TokenKind} (level : Tracks limits exact operand operand')
include level

/-- A recorded left operand is extended as it is in the grammar. -/
theorem extendLeft_follows (rounds : Nat) {start : Memory} {left : Placed}
    (recorded : left.Recorded limits exact start) :
    TracksFrom limits exact start
      ((remembering limits allocator).extendLeft operand ops rounds left)
      (Parse.extendLeft limits operand' ops rounds left.measured) := by
  induction rounds generalizing start left with
  | zero => exact follows_fail _
  | succ rounds ih =>
    unfold Parse.extendLeft Builder.extendLeft
    refine .behind fun token => ?_
    split
    · refine .behind fun op => (level start).bind fun memory right grows recorded' => ?_
      refine (binaryNode_follows allocator op ?_).bind fun _ _ _ whole => ih whole
      exact (allRecorded_singleton recorded').cons recorded grows
    · exact follows_pure fun _ grows => recorded.mono grows

/-- Levels with any number of operators track those of the grammar if their operands do. -/
theorem leftAssociative_tracks :
    Tracks limits exact ((remembering limits allocator).leftAssociative operand ops)
    (Parse.leftAssociative limits operand' ops) := by
  intro start
  unfold Parse.leftAssociative Builder.leftAssociative
  refine (level start).bind fun memory first _ recorded => .rounds fun rounds => ?_
  exact extendLeft_follows allocator level rounds recorded

/-- Levels with at most one operator track those of the grammar if their operands do. -/
theorem nonAssociative_tracks (chain : Fault) :
    Tracks limits exact ((remembering limits allocator).nonAssociative operand ops chain)
      (Parse.nonAssociative limits operand' ops chain) := by
  intro start
  unfold Parse.nonAssociative Builder.nonAssociative
  refine (level start).bind fun memory left _ recorded => .behind fun token => ?_
  split
  · refine .behind fun op => (level memory).bind fun later right grows recorded' => ?_
    refine .behind fun next => ?_
    split
    · refine .behind fun _ => (level later).bind fun _ chained _ _ => .behind fun _ => ?_
      exact follows_fail _
    · exact binaryNode_follows allocator op
        ((allRecorded_singleton recorded').cons recorded grows)
  · exact follows_pure fun _ grows => recorded.mono grows

end Operators

section Levels

variable (leaves : limits.allows 1 = true) (inner : Tracks limits exact expression expression')
include leaves inner

/-- Products track those of the grammar. -/
theorem product_tracks : Tracks limits exact ((remembering limits allocator).product expression)
    (Parse.product limits expression') :=
  leftAssociative_tracks allocator (unary_tracks allocator leaves inner)

/-- Sums track those of the grammar. -/
theorem sum_tracks : Tracks limits exact ((remembering limits allocator).sum expression)
    (Parse.sum limits expression') :=
  leftAssociative_tracks allocator (product_tracks allocator leaves inner)

/-- Concatenations track those of the grammar. -/
theorem concatenation_tracks :
    Tracks limits exact ((remembering limits allocator).concatenation expression)
    (Parse.concatenation limits expression') :=
  leftAssociative_tracks allocator (sum_tracks allocator leaves inner)

/-- Comparisons track those of the grammar. -/
theorem comparison_tracks :
    Tracks limits exact ((remembering limits allocator).comparison expression)
    (Parse.comparison limits expression') :=
  nonAssociative_tracks allocator (concatenation_tracks allocator leaves inner) _

/-- Expressions of the loosest level track those of the grammar. -/
theorem equality_tracks : Tracks limits exact ((remembering limits allocator).equality expression)
    (Parse.equality limits expression') :=
  nonAssociative_tracks allocator (comparison_tracks allocator leaves inner) _

end Levels

/-- Programs track those of the grammar if expressions do. -/
theorem program_tracks (inner : Tracks limits exact expression expression') :
    Tracks limits exact ((remembering limits allocator).program expression)
      ((Builder.measuring limits).program expression') := by
  intro start
  unfold Builder.program
  refine .rounds fun rounds => ?_
  refine (statements_follows allocator inner rounds start).bind fun memory stmts _ recorded => ?_
  refine .behind fun finish => .behind fun span => ?_
  rw [nodes_measured]
  exact tracks_build rfl recorded

section Brackets

variable (leaves : limits.allows 1 = true)
include leaves

/-- Expressions of any depth track those of the grammar. -/
theorem expressionWithin_tracks (depth : Nat) :
    Tracks limits exact ((remembering limits allocator).expressionWithin depth)
      (Parse.expressionWithin limits depth) := by
  induction depth with
  | zero => exact fun start => follows_fail _
  | succ depth ih => exact equality_tracks allocator leaves ih

/-- What tracks with any expressions in brackets tracks with those of the grammar. -/
theorem withBrackets_tracks {rule : Action Placed → Action Placed}
    {rule' : Parse Measured → Parse Measured}
    (tracks : ∀ {expression expression'}, Tracks limits exact expression expression' →
      Tracks limits exact (rule expression) (rule' expression')) :
    Tracks limits exact ((remembering limits allocator).withBrackets rule)
      (Parse.withBrackets limits rule') :=
  fun start => .behind fun depth => tracks (expressionWithin_tracks allocator leaves depth) start

end Brackets

end Rules

/-- A rule of the grammar, carried out by a parser that looks heights up. -/
def rule (limits : Limits) (allocator : Allocator) (rule : Rule) : Action Placed :=
  rule.call (remembering limits allocator)

/-- Every rule that looks heights up goes along with the one of the grammar that carries them. -/
theorem rule_tracks {limits : Limits} (exact : Prop) (allocator : Allocator)
    (leaves : limits.allows 1 = true) (rule : Rule) :
    Tracks limits exact (Parser.rule limits allocator rule) (rule.action limits) := by
  cases rule with
  | program => exact withBrackets_tracks allocator leaves (program_tracks allocator)
  | statement => exact withBrackets_tracks allocator leaves (statement_tracks allocator)
  | letStatement => exact withBrackets_tracks allocator leaves (letStatement_tracks allocator)
  | block => exact withBrackets_tracks allocator leaves (block_tracks allocator)
  | expression => exact withBrackets_tracks allocator leaves (equality_tracks allocator leaves)
  | equality => exact withBrackets_tracks allocator leaves (equality_tracks allocator leaves)
  | comparison => exact withBrackets_tracks allocator leaves (comparison_tracks allocator leaves)
  | concatenation =>
    exact withBrackets_tracks allocator leaves (concatenation_tracks allocator leaves)
  | sum => exact withBrackets_tracks allocator leaves (sum_tracks allocator leaves)
  | product => exact withBrackets_tracks allocator leaves (product_tracks allocator leaves)
  | unary => exact withBrackets_tracks allocator leaves (unary_tracks allocator leaves)
  | primary => exact withBrackets_tracks allocator leaves (primary_tracks allocator leaves)

/-- In a fresh parser nothing is entered yet, so it does not matter where heights come from. -/
theorem rule_start {limits : Limits} (allocator : Allocator) (leaves : limits.allows 1 = true)
    (rule : Rule) (source : Source) :
    ((Parser.rule limits allocator rule (start source)).1.map Placed.measured,
      (Parser.rule limits allocator rule (start source)).2.cursor) =
        rule.action limits (Cursor.start source) :=
  (rule_tracks True allocator leaves rule .empty (start source)
    ⟨List.forall_mem_nil _, fun _ => List.forall_mem_nil _⟩ (.refl _)).eq_of_exact trivial

/-- The tree of a source is the one that a fresh parser answers with. -/
theorem program_start (allocator : Allocator) (source : Source) :
    (Parser.rule .standard allocator .program (start source)).1.map Placed.node = source.parse := by
  have same := congrArg (fun outcome => outcome.1.map Measured.node)
    (@rule_start .standard allocator rfl .program source)
  generalize Parser.rule .standard allocator .program (start source) = outcome at same ⊢
  obtain ⟨failure | tree, after⟩ := outcome
  · exact same
  · exact same

end Parser

end SinosLang
