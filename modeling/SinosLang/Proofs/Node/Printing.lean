import SinosLang.Proofs.Lexing.ReadAs
import SinosLang.Proofs.Node.WellFormed
import SinosLang.Proofs.Node.Writing

/-!
# The source text of a tree stands for the tree

The source text of a proper node is read as tokens that stand for the node. This is shown by
induction on the children, with one lemma for each kind of node: the texts of the children are read
as the children stand, and the pieces around them keep them apart.

Main statement: `exists_program`, the source text of a module whose nodes are all proper consists of
the tokens of a program of its shape.
-/

set_option autoImplicit false

namespace SinosLang

open Grammar

namespace Node

variable {span : Span} {op value binding : Text} {node left right operand expr : Node}
  {stmts : List Node} {last? : Option Node} {tokens : List Token}

/-- The tokens stand for a node as an expression of its level. -/
def StandsAsExpression (node : Node) (tokens : List Token) : Prop :=
  ∀ depth, node.bracketDepth < depth → Expression Plain depth node.level tokens node.erase

/-- The tokens stand for a node as a statement, wherever a statement may stand. -/
def StandsAsStatement (node : Node) (tokens : List Token) : Prop :=
  ∀ depth inside next, node.bracketDepth < depth →
    Statement Plain (Expression Plain depth .equality) inside next tokens node.erase

/-- A node is read as it is written, as an expression or as a statement. -/
structure Legible (node : Node) : Prop where
  expression : node.isExpression = true → ReadAs node.sourceText node.StandsAsExpression
  statement : node.isStatement = true → ReadAs node.sourceText node.StandsAsStatement

/-- An expression is legible if it is read as it is written. -/
theorem Legible.of_expression (isExpression : node.isExpression = true)
    (reads : ReadAs node.sourceText node.StandsAsExpression) : node.Legible where
  expression _ := reads
  statement isStatement := by
    rw [isExpression_of_isStatement isStatement] at isExpression
    cases isExpression

/-- A statement is legible if it is read as it is written. -/
theorem Legible.of_statement (isStatement : node.isStatement = true)
    (reads : ReadAs node.sourceText node.StandsAsStatement) : node.Legible where
  expression isExpression := by
    rw [isExpression_of_isStatement isStatement] at isExpression
    cases isExpression
  statement _ := reads

/-- What stands for an expression begins with a token that an expression may begin with. -/
theorem StandsAsExpression.exists_head (stands : node.StandsAsExpression tokens) :
    ∃ first rest, tokens = first :: rest ∧ first.kind ∈ starters :=
  (stands _ (Nat.lt_succ_self _)).exists_head

/-- An operand stands at every level that its own level belongs to, and in the brackets around it. -/
theorem StandsAsExpression.derives {level : Level} {depth : Nat}
    (stands : node.StandsAsExpression tokens) (le : level.rank ≤ node.level.rank)
    (deep : node.bracketDepth < depth + 1) :
    Derives Plain (Expression Plain depth .equality) level tokens node.erase :=
  Derives.loosen (stands (depth + 1) deep) le

/-- What stands for an expression is one in every bracket that is around all those it opens. -/
theorem StandsAsExpression.expression {depth : Nat} (stands : node.StandsAsExpression tokens)
    (deep : node.bracketDepth < depth) : Expression Plain depth .equality tokens node.erase := by
  cases depth with
  | zero => exact absurd deep (Nat.not_lt_zero _)
  | succ depth => exact stands.derives (by cases node.level <;> decide) deep

/-- A node stands as an expression if it is derived within all brackets that it opens. -/
theorem standsAsExpression_of_derives
    (derived : ∀ depth, node.bracketDepth < depth + 1 →
      Derives Plain (Expression Plain depth .equality) node.level tokens node.erase) :
    node.StandsAsExpression tokens := by
  intro depth deep
  cases depth with
  | zero => exact absurd deep (Nat.not_lt_zero _)
  | succ depth => exact derived depth deep

/-- A primary expression stands as an expression if it is derived within all brackets that it
opens. -/
theorem standsAsExpression_of_primary (isPrimary : node.level = .primary)
    (derived : ∀ depth, node.bracketDepth ≤ depth →
      Primary Plain (Expression Plain depth .equality) tokens node.erase) :
    node.StandsAsExpression tokens := by
  refine standsAsExpression_of_derives fun depth deep => ?_
  rw [isPrimary]
  exact .primary (derived depth (Nat.le_of_lt_succ deep))

/-- A child opens fewer brackets at once than one around it. -/
theorem bracketDepth_lt_of_isBracket {child : Node} (isBracket : node.isBracket = true)
    (isChild : child ∈ node.children) : child.bracketDepth < node.bracketDepth := by
  have bounded := heaviest_le_of_mem (fun inner => if inner.isBracket then 1 else 0) isChild
  rw [bracketDepth, bracketDepth, heaviest_eq _ node, isBracket, if_pos rfl]
  omega

/-! ## Literals and names -/

/-- An identifier is read as a single token. -/
theorem readAs_identifier {text : Text} (isIdentifier : text.IsIdentifier) :
    ReadAs text (Single .ident text) := by
  obtain ⟨word, notKeyword⟩ := isIdentifier
  have isIdent : TokenKind.ofWord text = .ident := by
    rw [TokenKind.ofWord, List.lookup_eq_none_iff.mpr, Option.getD_none]
    intro entry isEntry
    rw [bne_iff_ne]
    rintro rfl
    exact notKeyword (List.mem_map_of_mem isEntry)
  have spells := Spells.word word
  rw [isIdent] at spells
  exact .single spells

/-- A name is read as it is written. -/
theorem readAs_name (proper : (name span value).Proper) :
    ReadAs (name span value).sourceText (name span value).StandsAsExpression := by
  rw [sourceText_name]
  refine (readAs_identifier proper).mono ?_
  rintro _ ⟨place, rfl⟩
  exact standsAsExpression_of_primary rfl fun depth _ => .name rfl rfl

/-- An integer that a source may have is read as it is written. -/
theorem readAs_integer {value : Int} (proper : (integer span value).Proper) :
    ReadAs (integer span value).sourceText (integer span value).StandsAsExpression := by
  obtain ⟨nonneg, short⟩ := proper
  obtain ⟨value, rfl⟩ := Int.eq_ofNat_of_zero_le nonneg
  rw [sourceText_integer]
  refine (ReadAs.single (.int (Text.isNumeral_ofNat value) short)).mono ?_
  rintro _ ⟨place, rfl⟩
  refine standsAsExpression_of_primary rfl fun depth _ => ?_
  have read : Primary Plain (Expression Plain depth .equality) [⟨.int, Text.ofNat value, place⟩]
      (.integer Span.origin (Text.toNat (Text.ofNat value))) := .integer rfl rfl
  rwa [Text.toNat_ofNat] at read

/-- A floating-point number that a source may have is read as it is written. -/
theorem readAs_float {value : Binary64} (proper : (float span value).Proper) :
    ReadAs (float span value).sourceText (float span value).StandsAsExpression := by
  obtain ⟨rank, rfl⟩ := proper
  obtain ⟨whole, fraction, shape, digits, decimals, denoted⟩ := Binary64.exists_literal rank
  rw [sourceText_float, shape]
  refine (ReadAs.single (.float digits decimals (by rw [denoted]; rfl))).mono ?_
  rintro _ ⟨place, rfl⟩
  refine standsAsExpression_of_primary rfl fun depth _ => ?_
  have read : Primary Plain (Expression Plain depth .equality)
      [⟨.float, whole ++ '.' :: fraction, place⟩]
      (.float Span.origin (Binary64.ofLiteral (whole ++ '.' :: fraction))) := .float rfl rfl
  rwa [denoted] at read

/-- A truth value is read as it is written. -/
theorem readAs_boolean (value : Bool) :
    ReadAs (boolean span value).sourceText (boolean span value).StandsAsExpression := by
  have word : Spells (truthText value) .bool (truthText value) := by
    cases value with
    | true => exact .word (Text.isWord_cons (by decide) (by decide))
    | false => exact .word (Text.isWord_cons (by decide) (by decide))
  rw [sourceText_boolean]
  refine (ReadAs.single word).mono ?_
  rintro _ ⟨place, rfl⟩
  refine standsAsExpression_of_primary rfl fun depth _ => ?_
  have read : Primary Plain (Expression Plain depth .equality) [⟨.bool, truthText value, place⟩]
      (.boolean Span.origin (truthText value == "true".toList)) := .boolean rfl rfl
  have denoted : (truthText value == "true".toList) = value := by
    cases value <;> rfl
  rwa [denoted] at read

/-- A string is read as it is written. -/
theorem readAs_string (value : Text) :
    ReadAs (string span value).sourceText (string span value).StandsAsExpression := by
  rw [sourceText_string]
  refine (ReadAs.single (.string (Text.quotes_literal value))).mono ?_
  rintro _ ⟨place, rfl⟩
  exact standsAsExpression_of_primary rfl fun depth _ => .string rfl rfl

/-! ## Operators -/

/-- A binary expression is read as it is written if its operands are. -/
theorem readAs_binary (proper : (binary span op left right).Proper)
    (readsLeft : ReadAs left.sourceText left.StandsAsExpression)
    (readsRight : ReadAs right.sourceText right.StandsAsExpression) :
    ReadAs (binary span op left right).sourceText
      (binary span op left right).StandsAsExpression := by
  obtain ⟨⟨kind, isOperator, known⟩, ⟨_, leftLe⟩, ⟨_, rightLe⟩⟩ := proper
  have clear (text : Text) : Text.Clear (' ' :: text) := Text.clear_cons (by decide) text
  have joined := readsLeft.append (clear op) ((ReadAs.symbol op known).blank ' ' rfl)
  rw [sourceText_binary]
  refine (joined.append (clear right.sourceText) (readsRight.blank ' ' rfl)).mono ?_
  rintro _ ⟨_, rightTokens, rfl, ⟨leftTokens, _, rfl, standsLeft, place, rfl⟩, standsRight⟩
  refine standsAsExpression_of_derives fun depth deep => ?_
  have isLeft : left ∈ (binary span op left right).children := by simp [children]
  have isRight : right ∈ (binary span op left right).children := by simp [children]
  exact .binary
    (standsLeft.derives leftLe ((bracketDepth_le_of_mem_children isLeft).trans_lt deep))
    (mem_operatorLevel isOperator known)
    (standsRight.derives rightLe ((bracketDepth_le_of_mem_children isRight).trans_lt deep)) rfl

/-- A unary expression is read as it is written if its operand is. -/
theorem readAs_unary (proper : (unary span op operand).Proper)
    (reads : ReadAs operand.sourceText operand.StandsAsExpression) :
    ReadAs (unary span op operand).sourceText (unary span op operand).StandsAsExpression := by
  obtain ⟨⟨kind, isPrefix, known⟩, ⟨_, le⟩⟩ := proper
  have noSlash : op ≠ ['/'] := by
    rintro rfl
    cases known
    exact absurd isPrefix (by decide)
  rw [sourceText_unary]
  refine (ReadAs.opening op known noSlash (fun _ stands => stands.exists_head) reads).mono ?_
  rintro _ ⟨_, operandTokens, rfl, ⟨place, rfl⟩, stands⟩
  refine standsAsExpression_of_derives fun depth deep => ?_
  have isChild : operand ∈ (unary span op operand).children := by simp [children]
  exact .unary isPrefix
    (stands.derives le ((bracketDepth_le_of_mem_children isChild).trans_lt deep)) rfl

/-! ## Brackets and statements -/

/-- A group is read as it is written if the expression in it is. -/
theorem readAs_group (reads : ReadAs expr.sourceText expr.StandsAsExpression) :
    ReadAs (group span expr).sourceText (group span expr).StandsAsExpression := by
  have opened := ReadAs.opening ['('] rfl (by decide)
    (fun _ stands => stands.exists_head) reads
  rw [sourceText_group]
  refine (opened.append (Text.clear_cons (by decide) []) (ReadAs.symbol _ rfl)).mono ?_
  rintro _ ⟨_, _, rfl, ⟨_, inner, rfl, ⟨place, rfl⟩, stands⟩, place', rfl⟩
  refine standsAsExpression_of_primary rfl fun depth deep => ?_
  have fewer : expr.bracketDepth < (group span expr).bracketDepth :=
    bracketDepth_lt_of_isBracket rfl (by simp [children])
  exact .group rfl (stands.expression (fewer.trans_le deep)) rfl rfl

/-- An expression statement is read as it is written if its expression is. -/
theorem readAs_exprStmt (reads : ReadAs expr.sourceText expr.StandsAsExpression) :
    ReadAs (exprStmt span expr).sourceText (exprStmt span expr).StandsAsStatement := by
  rw [sourceText_exprStmt]
  refine (reads.append (Text.clear_cons (by decide) []) (ReadAs.symbol _ rfl)).mono ?_
  rintro _ ⟨inner, _, rfl, stands, place, rfl⟩
  intro depth inside next deep
  have isChild : expr ∈ (exprStmt span expr).children := by simp [children]
  exact .terminated
    (stands.expression ((bracketDepth_le_of_mem_children isChild).trans_lt deep)) rfl rfl

/-- A binding is read as it is written if its expression is. -/
theorem readAs_letStmt {type? : Option Text} (proper : (letStmt span binding type? expr).Proper)
    (reads : ReadAs expr.sourceText expr.StandsAsExpression) :
    ReadAs (letStmt span binding type? expr).sourceText
      (letStmt span binding type? expr).StandsAsStatement := by
  obtain ⟨isIdentifier, typeIsIdentifier, _⟩ := proper
  have filled : type? ≠ some [] := by
    rintro rfl
    obtain ⟨⟨_, _, shape, _⟩, _⟩ := typeIsIdentifier [] rfl
    cases shape
  have clear (text : Text) : Text.Clear (' ' :: text) := Text.clear_cons (by decide) text
  have keyword : ReadAs "let".toList (Single .letKeyword "let".toList) :=
    ReadAs.single (.word (Text.isWord_cons (by decide) (by decide)))
  have typePart : ReadAs (type?.elim [] fun type => ": ".toList ++ type)
      (fun tokens => TypePart tokens type?) := by
    cases type? with
    | none => exact ReadAs.nil .absent
    | some type =>
      have named := (readAs_identifier (typeIsIdentifier type rfl)).blank ' ' rfl
      refine ((ReadAs.symbol [':'] rfl).append (clear type) named).mono ?_
      rintro _ ⟨_, _, rfl, ⟨place, rfl⟩, place', rfl⟩
      exact .present rfl rfl
  have typeClear : Text.Clear (type?.elim [] fun type => ": ".toList ++ type) := by
    cases type? with
    | none => exact Text.clear_nil
    | some type => exact Text.clear_cons (by decide) _
  -- the parts of the statement are read from the last one to the first
  have ended := (reads.append (Text.clear_cons (by decide) [])
    (ReadAs.symbol [';'] rfl)).blank ' ' rfl
  have assigned := ((ReadAs.symbol ['='] rfl).append (clear _) ended).blank ' ' rfl
  have typed := typePart.append (clear _) assigned
  have bound := (readAs_identifier isIdentifier).append (typeClear.append (clear _)) typed
  have whole := keyword.append (clear _) (bound.blank ' ' rfl)
  have shape : (letStmt span binding type? expr).sourceText =
      "let".toList ++ ' ' :: (binding ++ ((type?.elim [] fun type => ": ".toList ++ type) ++
        ' ' :: (['='] ++ ' ' :: (expr.sourceText ++ [';'])))) := by
    rw [sourceText_letStmt span binding filled]
    simp
  rw [shape]
  refine whole.mono ?_
  rintro _ ⟨_, _, rfl, ⟨place, rfl⟩, _, _, rfl, ⟨place', rfl⟩, typeTokens, _, rfl, typed, _, _, rfl,
    ⟨place'', rfl⟩, valueTokens, _, rfl, stands, place''', rfl⟩
  intro depth inside next deep
  have isChild : expr ∈ (letStmt span binding type? expr).children := by simp [children]
  have value := stands.expression ((bracketDepth_le_of_mem_children isChild).trans_lt deep)
  have derived : Statement Plain (Expression Plain depth .equality) inside next
      ([⟨.letKeyword, "let".toList, place⟩] ++
        (⟨.ident, binding, place'⟩ :: typeTokens ++ ⟨.assign, ['='], place''⟩ :: valueTokens) ++
        [⟨.semi, [';'], place'''⟩])
      (.letStmt Span.origin binding type? expr.erase) := .binding rfl rfl typed rfl value rfl rfl
  rw [List.append_assoc, List.cons_append, List.append_assoc, List.cons_append] at derived
  exact derived

/-! ## Several statements -/

/-- The tokens stand for several nodes as statements, whatever stands behind them. -/
def StandAsStatements (stmts : List Node) (tokens : List Token) : Prop :=
  ∀ depth inside behind, (∀ stmt ∈ stmts, stmt.bracketDepth < depth) →
    Statements Plain (Expression Plain depth .equality) inside behind tokens (stmts.map erase)

/-- Nodes that are written with a breaking character before each may stand behind every token. -/
theorem clear_flatMap {separator : Char} (isBreak : separator ∈ Text.breaks)
    (nodes : List Node) : Text.Clear (nodes.flatMap fun node => separator :: node.sourceText) := by
  cases nodes with
  | nil => exact Text.clear_nil
  | cons node nodes => exact Text.clear_cons isBreak _

/-- The tokens of a statement and those of the statements behind it stand for all of them. -/
theorem standAsStatements_cons (first : Node) (stmts : List Node) {tokens : List Token}
    (stands : Then first.StandsAsStatement (StandAsStatements stmts) tokens) :
    StandAsStatements (first :: stmts) tokens := by
  obtain ⟨front, back, rfl, standsFirst, standsRest⟩ := stands
  intro depth inside behind deep
  exact .cons (standsFirst depth inside _ (deep first List.mem_cons_self))
    (standsRest depth inside behind fun stmt isIn => deep stmt (List.mem_cons_of_mem _ isIn))

/-- Statements with a blank before each are read one after the other. -/
theorem readAs_stmts (separator : Char) (isBlank : Text.isBlank separator = true)
    (isBreak : separator ∈ Text.breaks)
    (reads : ∀ stmt ∈ stmts, ReadAs stmt.sourceText stmt.StandsAsStatement) :
    ReadAs (stmts.flatMap fun stmt => separator :: stmt.sourceText) (StandAsStatements stmts) := by
  induction stmts with
  | nil => exact ReadAs.nil fun _ _ _ _ => .nil
  | cons first stmts ih =>
    have others := ih fun stmt isIn => reads stmt (List.mem_cons_of_mem _ isIn)
    have whole := ((reads first List.mem_cons_self).blank separator isBlank).append
      (clear_flatMap isBreak stmts) others
    rw [List.flatMap_cons]
    exact whole.mono fun _ => standAsStatements_cons first stmts

/-- A block is read as it is written if what is in it is. -/
theorem readAs_block (readStmts : ∀ stmt ∈ stmts, ReadAs stmt.sourceText stmt.StandsAsStatement)
    (readLast : ∀ last, last? = some last → ReadAs last.sourceText last.StandsAsExpression) :
    ReadAs (block span stmts last?).sourceText (block span stmts last?).StandsAsExpression := by
  have ending : ReadAs (last?.toList.flatMap fun last => ' ' :: last.sourceText) fun tokens =>
      ∀ depth, (∀ last ∈ last?.toList, last.bracketDepth < depth) →
        Ending (Expression Plain depth .equality) tokens (last?.map erase) := by
    cases last? with
    | none => exact ReadAs.nil fun _ _ => .absent
    | some last =>
      rw [Option.toList_some, List.flatMap_singleton]
      refine ((readLast last rfl).blank ' ' rfl).mono fun tokens stands depth deep => ?_
      exact .present (stands.expression (deep last List.mem_cons_self))
  have closing : ReadAs
      (if (stmts ++ last?.toList).isEmpty then ['\x7d'] else [' ', '\x7d'])
      (Single .rbrace ['\x7d']) := by
    split
    · exact ReadAs.symbol ['\x7d'] rfl
    · exact (ReadAs.symbol ['\x7d'] rfl).blank ' ' rfl
  have closingClear : Text.Clear
      (if (stmts ++ last?.toList).isEmpty then ['\x7d'] else [' ', '\x7d']) := by
    split <;> exact Text.clear_cons (by decide) _
  have clear (nodes : List Node) : Text.Clear (nodes.flatMap fun node => ' ' :: node.sourceText) :=
    clear_flatMap (by decide) nodes
  have parts := (readAs_stmts ' ' rfl (by decide) readStmts).append (clear last?.toList) ending
  have whole := ((ReadAs.symbol ['\x7b'] rfl).append
    ((clear stmts).append (clear last?.toList)) parts).append closingClear closing
  rw [sourceText_block, List.flatMap_append]
  refine whole.mono ?_
  rintro _ ⟨_, _, rfl, ⟨_, _, rfl, ⟨place, rfl⟩, stmtTokens, lastTokens, rfl, standStmts,
    standsLast⟩, place', rfl⟩
  refine standsAsExpression_of_primary rfl fun depth deep => ?_
  have fewer (child : Node) (isChild : child ∈ (block span stmts last?).children) :
      child.bracketDepth < depth := (bracketDepth_lt_of_isBracket rfl isChild).trans_le deep
  have derived := standStmts depth true (nextKind lastTokens .rbrace) fun stmt isIn =>
    fewer stmt (List.mem_append_left _ isIn)
  have ended := standsLast depth fun last isIn => fewer last (List.mem_append_right _ isIn)
  simp only [erase, mapSpans, mapSpansAll_eq_map, mapSpansOption_eq_map]
  exact .block rfl derived ended rfl rfl

/-- A program is read as it is written if its statements are. -/
theorem readAs_module (span : Span)
    (reads : ∀ stmt ∈ stmts, ReadAs stmt.sourceText stmt.StandsAsStatement) :
    ReadAs (module span stmts).sourceText (StandAsStatements stmts) := by
  cases stmts with
  | nil =>
    rw [sourceText_module_nil]
    exact ReadAs.nil fun _ _ _ _ => .nil
  | cons first stmts =>
    have others := readAs_stmts '\n' rfl (by decide) fun stmt isIn =>
      reads stmt (List.mem_cons_of_mem _ isIn)
    have whole := (reads first List.mem_cons_self).append (clear_flatMap (by decide) stmts) others
    rw [sourceText_module_cons]
    exact whole.mono fun _ => standAsStatements_cons first stmts

/-! ## All nodes -/

/-- A tree of proper nodes is read as it is written. -/
theorem legible (node : Node) (proper : ∀ part ∈ node.preorder, part.Proper) : node.Legible := by
  induction node using induction_on_children with
  | step node ih =>
    have isProper := proper node (mem_preorder_self node)
    have below (child : Node) (isChild : child ∈ node.children) : child.Legible :=
      ih child isChild fun part isPart =>
        proper part (mem_preorder_iff.mpr (.inr ⟨child, isChild, isPart⟩))
    cases node with
    | module => exact ⟨fun isExpr => (by cases isExpr), fun isStmt => (by cases isStmt)⟩
    | letStmt span binding type? value =>
      have reads := (below value (by simp [children])).expression isProper.2.2
      exact .of_statement rfl (readAs_letStmt isProper reads)
    | exprStmt span expr =>
      have reads := (below expr (by simp [children])).expression isProper
      exact .of_statement rfl (readAs_exprStmt reads)
    | block span stmts last? =>
      refine .of_expression rfl (readAs_block (fun stmt isIn => ?_) fun last isLast => ?_)
      · exact (below stmt (List.mem_append_left _ isIn)).statement (isProper.1 stmt isIn)
      · exact (below last (by simp [children, isLast])).expression (isProper.2 last isLast)
    | binary span op left right =>
      have readsLeft := (below left (by simp [children])).expression isProper.2.1.1
      have readsRight := (below right (by simp [children])).expression isProper.2.2.1
      exact .of_expression rfl (readAs_binary isProper readsLeft readsRight)
    | unary span op operand =>
      have reads := (below operand (by simp [children])).expression isProper.2.1
      exact .of_expression rfl (readAs_unary isProper reads)
    | group span expr =>
      have reads := (below expr (by simp [children])).expression isProper
      exact .of_expression rfl (readAs_group reads)
    | name => exact .of_expression rfl (readAs_name isProper)
    | integer => exact .of_expression rfl (readAs_integer isProper)
    | float => exact .of_expression rfl (readAs_float isProper)
    | boolean span value => exact .of_expression rfl (readAs_boolean value)
    | string span value => exact .of_expression rfl (readAs_string value)

/-- The source text of a module of proper nodes consists of the tokens of a program of its shape. -/
theorem exists_program (isModule : ∃ span stmts, node = module span stmts)
    (proper : ∀ part ∈ node.preorder, part.Proper) :
    ∃ tokens, Lexes 0 node.sourceText tokens ∧ Program Plain tokens node.erase := by
  obtain ⟨span, stmts, rfl⟩ := isModule
  have areStmts := proper _ (mem_preorder_self _)
  have reads : ∀ stmt ∈ stmts, ReadAs stmt.sourceText stmt.StandsAsStatement := by
    intro stmt isIn
    have legible := legible stmt fun part isPart =>
      proper part (mem_preorder_iff.mpr (.inr ⟨stmt, isIn, isPart⟩))
    exact legible.statement (areStmts stmt isIn)
  obtain ⟨tokens, lexes, stand⟩ := readAs_module span reads Text.clear_nil (.done rfl)
  rw [List.append_nil, List.append_nil] at lexes
  have fewer (stmt : Node) (isIn : stmt ∈ (module span stmts).children) :
      stmt.bracketDepth < (module span stmts).bracketDepth + 1 :=
    Nat.lt_succ_of_le (bracketDepth_le_of_mem_children isIn)
  refine ⟨tokens, lexes, (module span stmts).bracketDepth + 1, Span.origin, stmts.map erase, ?_,
    stand _ false .eof fewer⟩
  simp [erase, mapSpans]

end Node

end SinosLang
