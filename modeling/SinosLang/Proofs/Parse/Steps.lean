import SinosLang.Proofs.Parse.Clocked

/-!
# The steps of a parse

What a parsing action does to the cursor, it does in single steps: it looks at the next token,
consumes one, enters a bracket or leaves one. An action is taken apart into such steps, and from
them a log of its run is kept. Brackets are counted in the type: the index of `Steps` is the number
of brackets that an action is still to leave, and every rule of the grammar owes none.

Main definitions: `Rule.steps` takes every rule apart, and `Steps.log` is the log of a run. Main
statement: `Steps.path`, by which the log is a path of single moves that accounts for all that the
run does to the cursor.
-/

set_option autoImplicit false

namespace SinosLang.Parse

/-! ## Moves -/

/-- What a single step of a parse comes to. -/
inductive Event
  | looks (token : Token)
  | takes (token : Token)
  | stumbles (failure : Failure)
  | opens (bracket : Token)
  | refuses (bracket : Token)
  | closes

/-- A step of a parse: what it came to, and the cursor it left. -/
structure Moment where
  event : Event
  after : Cursor

/-- The moment of a step that asks for a token. -/
def Moment.ofToken (event : Token → Event) : Except Failure Token × Cursor → Moment
  | (.ok token, after) => ⟨event token, after⟩
  | (.error failure, after) => ⟨.stumbles failure, after⟩

/-- A moment is what a single step makes of the cursor before it. -/
inductive Move (limits : Limits) (before : Cursor) : Moment → Prop
  | looks {token : Token} {after : Cursor} :
    current before = (.ok token, after) → Move limits before ⟨.looks token, after⟩
  | takes {token : Token} {after : Cursor} :
    advance before = (.ok token, after) → Move limits before ⟨.takes token, after⟩
  | looksInVain {failure : Failure} {after : Cursor} :
    current before = (.error failure, after) → Move limits before ⟨.stumbles failure, after⟩
  | takesInVain {failure : Failure} {after : Cursor} :
    advance before = (.error failure, after) → Move limits before ⟨.stumbles failure, after⟩
  | opens {bracket : Token} {after : Cursor} :
    openBracket limits bracket before = (.ok (), after) → Move limits before ⟨.opens bracket, after⟩
  | refuses {bracket : Token} {failure : Failure} {after : Cursor} :
    openBracket limits bracket before = (.error failure, after) →
      Move limits before ⟨.refuses bracket, after⟩
  | closes {after : Cursor} :
    closeBracket before = (.ok (), after) → Move limits before ⟨.closes, after⟩

/-- A path of moves from one cursor to another. -/
inductive Path (limits : Limits) : Cursor → List Moment → Cursor → Prop
  | stay (cursor : Cursor) : Path limits cursor [] cursor
  | move {cursor final : Cursor} {moment : Moment} {log : List Moment} :
    Move limits cursor moment → Path limits moment.after log final →
      Path limits cursor (moment :: log) final

namespace Path

variable {limits : Limits} {cursor middle final : Cursor} {log later : List Moment}

/-- Two paths in a row are a path. -/
theorem append (first : Path limits cursor log middle) (second : Path limits middle later final) :
    Path limits cursor (log ++ later) final := by
  induction first with
  | stay => exact second
  | move made _ ih => exact .move made (ih second)

/-- A path goes through every one of its moments. -/
theorem upTo {past : List Moment} {moment : Moment} (path : Path limits cursor log final)
    (through : past ++ [moment] <+: log) :
    Path limits cursor (past ++ [moment]) moment.after := by
  induction path generalizing past with
  | stay => simp at through
  | move made rest ih =>
    cases past with
    | nil =>
      obtain ⟨rfl, -⟩ := List.cons_prefix_cons.mp through
      exact .move made (.stay _)
    | cons head past =>
      obtain ⟨rfl, further⟩ := List.cons_prefix_cons.mp through
      exact .move made (ih further)

end Path

/-! ## Taking an action apart -/

/-- An action taken apart into steps, with the number of brackets that it is still to leave. What
leaves the cursor as it is, such as an answer or a report, is no step. -/
inductive Steps (limits : Limits) : Nat → {α : Type} → Parse α → Type 1
  | still {α : Type} (action : Parse α) (keeps : ∀ cursor, (action cursor).2 = cursor) :
    Steps limits 0 action
  | look : Steps limits 0 current
  | take : Steps limits 0 advance
  | andThen {debt : Nat} {α β : Type} {first : Parse α} {next : α → Parse β} :
    Steps limits 0 first → (∀ value, Steps limits debt (next value)) →
      Steps limits debt (first >>= next)
  | enter {debt : Nat} {α : Type} (bracket : Token) {next : Unit → Parse α} :
    Steps limits (debt + 1) (next ()) → Steps limits debt (openBracket limits bracket >>= next)
  | leave {debt : Nat} {α : Type} {next : Unit → Parse α} :
    Steps limits debt (next ()) → Steps limits (debt + 1) (closeBracket >>= next)

namespace Steps

/-- The log of a run from a cursor. -/
def log {limits : Limits} {debt : Nat} {α : Type} {action : Parse α} :
    Steps limits debt action → Cursor → List Moment
  | still _ _, _ => []
  | look, cursor => [Moment.ofToken .looks (current cursor)]
  | take, cursor => [Moment.ofToken .takes (advance cursor)]
  | @andThen _ _ _ _ first _ steps rest, cursor =>
    steps.log cursor ++
      match first cursor with
      | (.ok value, after) => (rest value).log after
      | (.error _, _) => []
  | @enter _ _ _ bracket _ inside, cursor =>
    match openBracket limits bracket cursor with
    | (.ok (), after) => ⟨.opens bracket, after⟩ :: inside.log after
    | (.error _, after) => [⟨.refuses bracket, after⟩]
  | leave outside, cursor =>
    ⟨.closes, (closeBracket cursor).2⟩ :: outside.log (closeBracket cursor).2

variable {limits : Limits} {debt : Nat} {α : Type} {action : Parse α}

/-- The log of a run is a path to where the run ends. -/
theorem path (steps : Steps limits debt action) (cursor : Cursor) :
    Path limits cursor (steps.log cursor) (action cursor).2 := by
  induction steps generalizing cursor with
  | still action keeps =>
    rw [keeps]
    exact .stay cursor
  | look =>
    rw [log]
    match run : current cursor with
    | (.ok token, after) => exact .move (.looks run) (.stay after)
    | (.error failure, after) => exact .move (.looksInVain run) (.stay after)
  | take =>
    rw [log]
    match run : advance cursor with
    | (.ok token, after) => exact .move (.takes run) (.stay after)
    | (.error failure, after) => exact .move (.takesInVain run) (.stay after)
  | @andThen _ _ _ first next steps rest ihFirst ihRest =>
    have before := ihFirst cursor
    rw [log]
    match run : first cursor with
    | (.ok value, after) =>
      rw [run] at before
      rw [bind_apply_of_ok run]
      exact before.append (ihRest value after)
    | (.error failure, after) =>
      rw [run] at before
      rw [bind_apply_of_error run]
      exact before.append (.stay after)
  | @enter _ _ bracket next inside ih =>
    rw [log]
    match run : openBracket limits bracket cursor with
    | (.ok (), after) =>
      rw [bind_apply_of_ok run]
      exact .move (.opens run) (ih after)
    | (.error failure, after) =>
      rw [bind_apply_of_error run]
      exact .move (.refuses run) (.stay after)
  | leave outside ih => exact .move (.closes rfl) (ih _)

/-! ## The rules of the grammar

Every rule is taken apart as it is written, its loops along their rounds.
-/

/-- A choice is one of the two actions it is between. -/
def choice {c : Prop} [decided : Decidable c] {yes no : Parse α}
    (ifYes : Steps limits debt yes) (ifNo : Steps limits debt no) :
    Steps limits debt (if c then yes else no) :=
  match decided with
  | .isTrue _ => ifYes
  | .isFalse _ => ifNo

/-- An answer is no step. -/
def answer (value : α) : Steps limits 0 (pure value : Parse α) :=
  .still _ fun _ => rfl

/-- A failure is no step. -/
def fail (failure : Failure) : Steps limits 0 (Parse.fail failure : Parse α) :=
  .still _ fun _ => rfl

/-- Covering two spans is no step. -/
def cover (first last : Span) : Steps limits 0 (Parse.cover first last) :=
  .still _ fun _ => rfl

/-- Counting rounds is no step. -/
def budget : Steps limits 0 Parse.budget :=
  .still _ fun _ => rfl

/-- Building a node is no step. -/
def build (node : Node) (parts : List Measured) : Steps limits 0 (Parse.build limits node parts) :=
  choice (answer _) (fail _)

/-- A match looks, and takes the token if it is of one of the kinds. -/
def accept (kinds : List TokenKind) : Steps limits 0 (Parse.accept kinds) :=
  .andThen .look fun _ => choice (.andThen .take fun token => answer (some token)) (answer none)

/-- An expectation is a match, and looks again to report. -/
def expect (kind : TokenKind) (fault : Fault) : Steps limits 0 (Parse.expect kind fault) :=
  .andThen (accept [kind]) fun
    | some token => answer token
    | none => .andThen .look fun _ => fail _

/-- A type annotation is a colon and an expected name, or nothing. -/
def typePart : Steps limits 0 Parse.typePart :=
  .andThen (accept [.colon]) fun
    | some _ => .andThen (expect .ident .expectName) fun name => answer (some name)
    | none => answer none

/-- The end of a statement is a semicolon, or nothing behind a block. -/
def statementEnd (expr : Node) : Steps limits 0 (Parse.statementEnd expr) :=
  choice
    (.andThen (accept [.semi]) fun
      | some semi => answer semi.span
      | none => answer expr.span)
    (.andThen (expect .semi .expectSemi) fun semi => answer semi.span)

/-- An expression becomes a statement with its end. -/
def expressionStatement (expr : Measured) :
    Steps limits 0 (Parse.expressionStatement limits expr) :=
  .andThen (statementEnd expr.node) fun _ => .andThen (cover _ _) fun _ => build _ _

/-- Putting prefix operators before an operand is no step. -/
def applyPrefixes (operand : Measured) :
    (ops : List Token) → Steps limits 0 (Parse.applyPrefixes limits operand ops)
  | [] => answer operand
  | _ :: ops =>
    .andThen (applyPrefixes operand ops) fun _ => .andThen (cover _ _) fun _ => build _ _

/-- The run of prefix operators looks once more than it takes. -/
def prefixRun : (rounds : Nat) → Steps limits 0 (Parse.prefixRun rounds)
  | 0 => fail _
  | rounds + 1 =>
    .andThen .look fun _ =>
      choice
        (.andThen .take fun op => .andThen (prefixRun rounds) fun ops => answer (op :: ops))
        (answer [])

/-- Building the node of an operator is no step. -/
def binaryNode (op : Token) (left right : Measured) :
    Steps limits 0 (Parse.binaryNode limits op left right) :=
  .andThen (cover _ _) fun _ => build _ _

section Levels

variable {operand : Parse Measured} (steps : Steps limits 0 operand) (ops : List TokenKind)

/-- A left operand is extended by an operator and its right operand, round by round. -/
def extendLeft : (rounds : Nat) → (left : Measured) →
    Steps limits 0 (Parse.extendLeft limits operand ops rounds left)
  | 0, _ => fail _
  | rounds + 1, left =>
    .andThen .look fun _ =>
      choice
        (.andThen .take fun op => .andThen steps fun right =>
          .andThen (binaryNode op left right) fun whole => extendLeft rounds whole)
        (answer left)

/-- A level with any number of operators is its first operand and the rounds over the others. -/
def leftAssociative : Steps limits 0 (Parse.leftAssociative limits operand ops) :=
  .andThen steps fun first => .andThen budget fun rounds => extendLeft steps ops rounds first

/-- A level with at most one operator looks for a second one behind the first. -/
def nonAssociative (chain : Fault) :
    Steps limits 0 (Parse.nonAssociative limits operand ops chain) :=
  .andThen steps fun left => .andThen .look fun _ =>
    choice
      (.andThen .take fun op => .andThen steps fun right => .andThen .look fun _ =>
        choice
          (.andThen .take fun _ => .andThen steps fun _ => .andThen (cover _ _) fun _ => fail _)
          (binaryNode op left right))
      (answer left)

end Levels

section Inside

variable {expression : Parse Measured} (steps : Steps limits 0 expression)

/-- A binding is its tokens around its expression. -/
def letStatement : Steps limits 0 (Parse.letStatement limits expression) :=
  .andThen .take fun _ => .andThen (expect .ident .expectName) fun _ =>
    .andThen typePart fun _ => .andThen (expect .assign .expectEqual) fun _ =>
      .andThen steps fun _ => .andThen (expect .semi .expectSemi) fun _ =>
        .andThen (cover _ _) fun _ => build _ _

/-- A statement looks whether it is a binding. -/
def statement : Steps limits 0 (Parse.statement limits expression) :=
  .andThen .look fun _ =>
    choice (letStatement steps) (.andThen steps fun expr => expressionStatement expr)

/-- What a block holds is taken round by round, up to the closing brace. -/
def blockItems : (rounds : Nat) → Steps limits 0 (Parse.blockItems limits expression rounds)
  | 0 => fail _
  | rounds + 1 =>
    .andThen .look fun _ =>
      choice (answer ([], none)) <|
      choice
        (.andThen (letStatement steps) fun stmt =>
          .andThen (blockItems rounds) fun items => answer (stmt :: items.1, items.2)) <|
      .andThen steps fun expr => .andThen .look fun _ =>
        choice (answer ([], some expr)) <|
        .andThen (expressionStatement expr) fun stmt =>
          .andThen (blockItems rounds) fun items => answer (stmt :: items.1, items.2)

/-- The statements of a program are taken round by round, up to the end. -/
def statements : (rounds : Nat) → Steps limits 0 (Parse.statements limits expression rounds)
  | 0 => fail _
  | rounds + 1 =>
    .andThen .look fun _ =>
      choice (answer []) <|
      .andThen (statement steps) fun stmt =>
        .andThen (statements rounds) fun stmts => answer (stmt :: stmts)

/-- A block is entered behind its opening brace and left behind its closing one. -/
def block : Steps limits 0 (Parse.block limits expression) :=
  .andThen (expect .lbrace .expectExpr) fun opening =>
    .enter opening <|
    .andThen budget fun rounds => .andThen (blockItems steps rounds) fun _ =>
      .andThen (expect .rbrace .expectBraceClose) fun _ =>
        .leave <|
        .andThen (cover _ _) fun _ => build _ _

/-- A group is entered before its opening parenthesis and left behind its closing one. -/
def group (opening : Token) : Steps limits 0 (Parse.group limits expression opening) :=
  .enter opening <|
  .andThen .take fun _ => .andThen steps fun _ =>
    .andThen (expect .rparen .expectParenClose) fun _ =>
      .leave <|
      .andThen (cover _ _) fun _ => build _ _

/-- A primary expression looks which kind it is of. -/
def primary : Steps limits 0 (Parse.primary limits expression) :=
  .andThen .look fun token =>
    match leafNode? token with
    | some node => .andThen .take fun _ => answer (leaf node)
    | none => choice (block steps) (choice (group steps token) (fail _))

/-- A unary expression is its prefix operators and its operand. -/
def unary : Steps limits 0 (Parse.unary limits expression) :=
  .andThen budget fun rounds => .andThen (prefixRun rounds) fun ops =>
    .andThen (primary steps) fun operand => applyPrefixes operand ops

/-- A product is a level over unary expressions. -/
def product : Steps limits 0 (Parse.product limits expression) :=
  leftAssociative (unary steps) _

/-- A sum is a level over products. -/
def sum : Steps limits 0 (Parse.sum limits expression) :=
  leftAssociative (product steps) _

/-- A concatenation is a level over sums. -/
def concatenation : Steps limits 0 (Parse.concatenation limits expression) :=
  leftAssociative (sum steps) _

/-- A comparison is a level over concatenations. -/
def comparison : Steps limits 0 (Parse.comparison limits expression) :=
  nonAssociative (concatenation steps) _ _

/-- An equality is a level over comparisons. -/
def equality : Steps limits 0 (Parse.equality limits expression) :=
  nonAssociative (comparison steps) _ _

end Inside

/-- The expressions of a depth are made of those of one less. -/
def expressionWithin : (depth : Nat) → Steps limits 0 (Parse.expressionWithin limits depth)
  | 0 => fail _
  | depth + 1 => equality (expressionWithin depth)

/-- A rule counts the depth for what it has in brackets. -/
def withBrackets {rule : Parse Measured → Parse α}
    (steps : ∀ {expression : Parse Measured}, Steps limits 0 expression →
      Steps limits 0 (rule expression)) :
    Steps limits 0 (Parse.withBrackets limits rule) :=
  .andThen budget fun depth => steps (expressionWithin depth)

/-- A program is its statements, and a look at the end. -/
def program : Steps limits 0 (Parse.program limits) :=
  withBrackets fun inner =>
    .andThen budget fun rounds => .andThen (statements inner rounds) fun _ =>
      .andThen .look fun _ => .andThen (cover _ _) fun _ => build _ _

end Steps

/-- A rule of the grammar taken apart. -/
def Rule.steps (limits : Limits) : (rule : Rule) → Steps limits 0 (rule.action limits)
  | .program => Steps.program
  | .statement => Steps.withBrackets Steps.statement
  | .letStatement => Steps.withBrackets Steps.letStatement
  | .block => Steps.withBrackets Steps.block
  | .expression => Steps.withBrackets Steps.equality
  | .equality => Steps.withBrackets Steps.equality
  | .comparison => Steps.withBrackets Steps.comparison
  | .concatenation => Steps.withBrackets Steps.concatenation
  | .sum => Steps.withBrackets Steps.sum
  | .product => Steps.withBrackets Steps.product
  | .unary => Steps.withBrackets Steps.unary
  | .primary => Steps.withBrackets Steps.primary

end SinosLang.Parse
