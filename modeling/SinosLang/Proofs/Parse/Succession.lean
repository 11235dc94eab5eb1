import SinosLang.Proofs.Lexing.Lines
import SinosLang.Proofs.Parse.Derivations

/-!
# Programs one after the other

A program may be followed by a newline and another program: the statements of the one come before
those of the other. What stands behind a statement matters only if it is a block without a semicolon,
and a token that starts a program continues an expression only if it is a sign. So the only programs
that do not stay apart are one that ends in such a block and one that starts with a sign.

Main statements: `Program.append` for the grammar and `parse_succession` for the parser.
-/

set_option autoImplicit false

namespace SinosLang

namespace Node

/-- Whether a statement is a block that no semicolon follows: it ends where its block ends. -/
def isBareBlock : Node → Bool
  | exprStmt span expr => expr.isBlock && span == expr.span
  | _ => false

/-- Whether the last statement of a program is a block that no semicolon follows. -/
def endsInBlock (tree : Node) : Bool :=
  tree.children.getLast?.any isBareBlock

variable (span span' span'' : Span) (stmts stmts' : List Node)

/-- A program of two lists of statements is as high as the higher of the programs of each. -/
theorem height_module_append :
    (module span (stmts ++ stmts')).height =
      max (module span' stmts).height (module span'' stmts').height := by
  simp only [height, heaviest, heaviestOfAll_append]
  omega

/-- A program of two lists of statements has brackets nested as deep as the deeper of the programs
of each. -/
theorem bracketDepth_module_append :
    (module span (stmts ++ stmts')).bracketDepth =
      max (module span' stmts).bracketDepth (module span'' stmts').bracketDepth := by
  simp [bracketDepth, heaviest, heaviestOfAll_append, isBracket]

end Node

namespace Grammar

section Append

variable {placed : Placement} {expr : Phrase} {inside : Bool} {behind : TokenKind}
  {front tokens : List Token} {stmts later : List Node}

/-- Statements may be followed by others if they may stand before the first token of those. -/
theorem Statements.append (h : Statements placed expr inside (nextKind tokens behind) front stmts)
    (k : Statements placed expr inside behind tokens later) :
    Statements placed expr inside behind (front ++ tokens) (stmts ++ later) := by
  generalize isNext : nextKind tokens behind = next at h
  induction h with
  | nil => exact k
  | cons derived _ ih =>
    rw [← isNext, ← nextKind_append] at derived
    rw [List.append_assoc, List.cons_append]
    exact .cons derived ih

/-- No tokens stand for no statements only. -/
theorem Statements.eq_nil (filled : ∀ tokens node, expr tokens node → tokens ≠ [])
    (h : Statements placed expr inside behind tokens stmts) (empty : tokens = []) : stmts = [] := by
  cases h with
  | nil => rfl
  | cons derived _ =>
    have := derived.ne_nil filled
    exact absurd (List.append_eq_nil_iff.mp empty).1 this

end Append

variable {depth : Nat} {next next' behind behind' : TokenKind} {tokens tokens' : List Token}
  {node : Node} {stmts stmts' : List Node}

/-- Whether a token of a kind may stand behind a block that is a statement without a semicolon. -/
def Parts (kind : TokenKind) : Prop :=
  kind ≠ .semi ∧ kind ∉ binaryOperators

/-- What stands behind a statement matters only if it is a block without a semicolon. -/
theorem Statement.retarget
    (h : Statement InPlace (Expression InPlace depth .equality) false next tokens node)
    (free : node.isBareBlock = true → Parts next') :
    Statement InPlace (Expression InPlace depth .equality) false next' tokens node := by
  cases h with
  | binding isLet isName type isAssign value isSemi allowed =>
    exact .binding isLet isName type isAssign value isSemi allowed
  | terminated value isSemi allowed => exact .terminated value isSemi allowed
  | standing value isBlock _ _ _ allowed =>
    obtain rfl := allowed.unique value.placed_span
    obtain ⟨notSemi, notBinary⟩ := free (by simp [Node.isBareBlock, isBlock])
    exact .standing value isBlock notSemi notBinary (by simp) allowed

/-- What stands behind some statements matters only if the last one is a block without a
semicolon. -/
theorem Statements.retarget
    (h : Statements InPlace (Expression InPlace depth .equality) false behind tokens stmts)
    (free : stmts.getLast?.any Node.isBareBlock = true → Parts behind') :
    Statements InPlace (Expression InPlace depth .equality) false behind' tokens stmts := by
  induction h with
  | nil => exact .nil
  | @cons first rest stmt stmts derived later ih =>
    by_cases empty : rest = []
    · obtain rfl := later.eq_nil (fun _ _ value => value.ne_nil) empty
      subst empty
      exact .cons (derived.retarget free) .nil
    · rw [nextKind_of_ne_nil empty behind behind'] at derived
      refine .cons derived (ih ?_)
      intro isBare
      apply free
      cases stmts with
      | nil => cases isBare
      | cons second stmts => rwa [List.getLast?_cons_cons]

/-- A program starts with the keyword of a let statement or like an expression, if it is not
empty. -/
theorem Statements.nextKind_mem
    (h : Statements InPlace (Expression InPlace depth .equality) false .eof tokens stmts) :
    nextKind tokens .eof ∈ .eof :: .letKeyword :: starters := by
  cases h with
  | nil => exact List.mem_cons_self
  | cons derived _ =>
    cases derived with
    | binding isLet => simp [nextKind, isLet]
    | terminated value _ _ | standing value _ _ _ _ _ =>
      obtain ⟨first, rest, rfl, starts⟩ := value.exists_head
      exact List.mem_cons_of_mem _ (List.mem_cons_of_mem _ starts)

/-- Only the signs both start an expression and continue one. -/
theorem parts_of_starts {kind : TokenKind} (starts : kind ∈ .eof :: .letKeyword :: starters)
    (noSign : kind ∉ Level.sum.operators) : Parts kind := by
  have signs : ∀ kind ∈ .eof :: .letKeyword :: starters,
      kind ≠ .semi ∧ (kind ∈ binaryOperators → kind ∈ Level.sum.operators) := by decide
  obtain ⟨notSemi, isSign⟩ := signs kind starts
  exact ⟨notSemi, mt isSign noSign⟩

/-- A program may be followed by another one, moved behind it, unless it ends in a block without a
semicolon and the other one starts with a sign. -/
theorem Program.append {span span' : Span} (h : Program InPlace tokens (.module span stmts))
    (k : Program InPlace tokens' (.module span' stmts'))
    (apart : (Node.module span stmts).endsInBlock = true →
      nextKind tokens' .eof ∉ Level.sum.operators) (offset : Nat) (span'' : Span) :
    Program InPlace (tokens ++ tokens'.map (Token.forth offset))
      (.module span'' (stmts ++ stmts'.map (Node.forth offset))) := by
  obtain ⟨depth, _, _, shape, derived⟩ := h
  cases shape
  obtain ⟨depth', _, _, shape, derived'⟩ := k
  cases shape
  have filled (depth : Nat) (tokens : List Token) (node : Node)
      (value : Expression InPlace depth .equality tokens node) : tokens ≠ [] := value.ne_nil
  obtain ⟨first, front, same⟩ := (carrying_self InPlace).statements (filled depth)
    ((carrying_self InPlace).expression_of_le (le_max_left depth depth') .equality) trivial derived
  obtain ⟨second, back, same'⟩ := (carrying_moveForth offset).statements (filled depth')
    ((carrying_moveForth offset).expression_of_le (le_max_right depth depth') .equality) trivial
    derived'
  rw [Node.map_mapSpans_id] at same same'
  rw [Node.map_mapSpans_id] at same
  rw [List.map_id] at front
  subst same same'
  have next_eq : nextKind (tokens'.map (Token.forth offset)) .eof = nextKind tokens' .eof :=
    (carrying_moveForth offset).nextKind_map tokens' .eof
  refine ⟨max depth depth', span'', _, rfl, Statements.append ?_ back⟩
  refine front.retarget fun isBare => ?_
  rw [next_eq]
  exact parts_of_starts derived'.nextKind_mem (apart isBare)

end Grammar

namespace Source

/-- Whether the first token of a source is a sign. -/
def startsWithSign (source : Source) : Bool :=
  source.tokenize.tokens.head?.any fun token => token.kind == .plus || token.kind == .sub

open Grammar

/-- Where no sign comes first, none comes first among the tokens before the end. -/
theorem nextKind_of_startsWithSign {source : Source} {tokens : List Token}
    (lexes : Lexes 0 source.text tokens) (noSign : source.startsWithSign = false) :
    nextKind tokens .eof ∉ Level.sum.operators := by
  have split := tokenize_eq_ok_iff.mpr ⟨tokens, lexes, rfl⟩
  rw [startsWithSign, (Tokenization.result_eq_ok_iff.mp split).2] at noSign
  cases tokens with
  | nil => decide
  | cons token tokens => simpa [nextKind, Level.operators] using noSign

/-- Programs may stand one after the other, with a newline between them: the statements of the first
one come before those of the second one, moved behind the newline. The exception is a first program
that ends in a block without a semicolon before a second one that starts with a sign. -/
theorem parse_succession {first second : Source} {tree tree' : Node}
    (parsed : first.parse = .ok tree) (parsed' : second.parse = .ok tree')
    (apart : ¬(tree.endsInBlock = true ∧ second.startsWithSign = true)) (name : Text) :
    (ofText name (first.text ++ '\n' :: second.text)).parse =
      .ok (.module ⟨0, first.size + 1 + second.size⟩
        (tree.children ++ tree'.children.map (Node.forth (first.size + 1)))) := by
  obtain ⟨tokens, lexes, derived, covers, few, low⟩ := parse_eq_ok_iff.mp parsed
  obtain ⟨tokens', lexes', derived', covers', few', low'⟩ := parse_eq_ok_iff.mp parsed'
  obtain ⟨_, span, stmts, rfl, _⟩ := id derived
  obtain ⟨_, span', stmts', rfl, _⟩ := id derived'
  have size : first.size = first.text.length := first.size_eq
  have moved : (Node.module span' stmts').forth (first.size + 1) =
      .module (span'.forth (first.size + 1)) (stmts'.map (Node.forth (first.size + 1))) := by
    rw [Node.forth, Node.mapSpans, Node.mapSpansAll_eq_map]
    rfl
  refine parse_eq_ok_iff.mpr ⟨_, lexes.line lexes', ?_, ?_, ?_, ?_⟩
  · rw [← size]
    refine derived.append derived' (fun isBare => ?_) _ _
    apply nextKind_of_startsWithSign lexes'
    simpa using fun isSign => apart ⟨isBare, isSign⟩
  · rw [ofText_size, List.length_append, List.length_cons, size, second.size_eq]
    simp [Node.span]
    omega
  · rw [Node.bracketDepth_module_append _ span (span'.forth (first.size + 1))]
    refine max_le few ?_
    show Node.bracketDepth (.module _ (stmts'.map _)) ≤ 40
    rwa [← moved, Node.forth, Node.bracketDepth_mapSpans]
  · rw [Node.height_module_append _ span (span'.forth (first.size + 1))]
    refine max_le low ?_
    show Node.height (.module _ (stmts'.map _)) ≤ 256
    rwa [← moved, Node.forth, Node.height_mapSpans]

/-- A comment ends before the newline, and an expression in parentheses is no sign. -/
theorem parse_succession_block :
    (ofText [] "\x7b1\x7d // end".toList).parse = .ok (.module ⟨0, 10⟩ [.exprStmt ⟨0, 3⟩
      (.block ⟨0, 3⟩ [] (some (.integer ⟨1, 1⟩ 1)))]) ∧
    (ofText [] ("\x7b1\x7d // end".toList ++ '\n' :: "(-x);".toList)).parse =
      .ok (.module ⟨0, 16⟩ [.exprStmt ⟨0, 3⟩ (.block ⟨0, 3⟩ [] (some (.integer ⟨1, 1⟩ 1))),
        .exprStmt ⟨11, 5⟩ (.group ⟨11, 4⟩ (.unary ⟨12, 2⟩ ['-'] (.name ⟨13, 1⟩ ['x'])))]) := by
  have parsed : (ofText [] "\x7b1\x7d // end".toList).parse = .ok (.module ⟨0, 10⟩ [.exprStmt ⟨0, 3⟩
      (.block ⟨0, 3⟩ [] (some (.integer ⟨1, 1⟩ 1)))]) := by cbv
  have parsed' : (ofText [] "(-x);".toList).parse = .ok (.module ⟨0, 5⟩ [.exprStmt ⟨0, 5⟩
      (.group ⟨0, 4⟩ (.unary ⟨1, 2⟩ ['-'] (.name ⟨2, 1⟩ ['x'])))]) := by cbv
  have noSign : (ofText [] "(-x);".toList).startsWithSign = false := by cbv
  refine ⟨parsed, parse_succession parsed parsed' ?_ []⟩
  rintro ⟨_, isSign⟩
  rw [noSign] at isSign
  cases isSign

end Source

end SinosLang
