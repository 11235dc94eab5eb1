import SinosLang.Proofs.Parse.Limits
import SinosLang.Parse.Grammar

/-!
# What is answered is low enough

Every tree that is built has had its height checked, and leaves are allowed by all limits that allow
any tree at all. So whatever a rule answers with, its recorded height is allowed: the last thing a rule
does is to build its tree, or to pass on what another rule has answered.

Main statements: `comparison_allowed` and `concatenation_allowed`.
-/

set_option autoImplicit false

namespace SinosLang.Parse

variable {α : Type} {limits : Limits}

/-- Whatever an action answers with has a height that is allowed. -/
def Allowed (limits : Limits) (action : Parse Measured) : Prop :=
  ∀ ⦃cursor after : Cursor⦄ ⦃result : Measured⦄, action cursor = (.ok result, after) →
    limits.allows result.height = true

/-- An answer is allowed if its height is. -/
theorem allowed_answer {value : Measured} (low : limits.allows value.height = true) :
    Allowed limits (answer value) := by
  rintro _ _ _ ⟨⟩
  exact low

/-- A failure answers with nothing that is not allowed. -/
theorem allowed_fail (failure : Failure) : Allowed limits (fail failure) := by
  rintro _ _ _ ⟨⟩

/-- The last of several actions decides. -/
theorem Allowed.behind {action : Parse α} {next : α → Parse Measured}
    (low : ∀ value, Allowed limits (next value)) : Allowed limits (action >>= next) := by
  intro cursor after result run
  obtain ⟨value, middle, _, run⟩ := bind_eq_ok.mp run
  exact low value run

/-- What was answered before may be passed on. -/
theorem Allowed.bind {action : Parse Measured} {next : Measured → Parse Measured}
    (first : Allowed limits action)
    (low : ∀ value, limits.allows value.height = true → Allowed limits (next value)) :
    Allowed limits (action >>= next) := by
  intro cursor after result run
  obtain ⟨value, middle, run', run⟩ := bind_eq_ok.mp run
  exact low value (first run') run

/-- A node that was built has an allowed height. -/
theorem build_allowed (node : Node) (parts : List Measured) :
    Allowed limits (build limits node parts) := by
  intro cursor after result run
  unfold build at run
  split at run
  next low =>
    cases run
    exact low
  next => cases run

/-- The node of an operator that was built has an allowed height. -/
theorem binaryNode_allowed (op : Token) (left right : Measured) :
    Allowed limits (binaryNode limits op left right) :=
  .behind fun _ => build_allowed _ _

variable {operand : Parse Measured} {ops : List TokenKind}

/-- What extends an allowed left operand has an allowed height. -/
theorem extendLeft_allowed {left : Measured} (low : limits.allows left.height = true)
    (rounds : Nat) : Allowed limits (extendLeft limits operand ops rounds left) := by
  induction rounds generalizing left with
  | zero => exact allowed_fail _
  | succ rounds ih =>
    refine .behind fun held => ?_
    split
    · refine .behind fun op => .behind fun right => ?_
      exact .bind (binaryNode_allowed op left right) fun _ lowWhole => ih lowWhole
    · exact allowed_answer low

/-- A level with any number of operators has allowed heights if its operands have. -/
theorem leftAssociative_allowed (low : Allowed limits operand) :
    Allowed limits (leftAssociative limits operand ops) :=
  .bind low fun _ lowFirst => .behind fun rounds => extendLeft_allowed lowFirst rounds

/-- A level with at most one operator has allowed heights if its operands have. -/
theorem nonAssociative_allowed (low : Allowed limits operand) (chain : Fault) :
    Allowed limits (nonAssociative limits operand ops chain) := by
  refine .bind low fun left lowLeft => .behind fun held => ?_
  split
  · refine .behind fun op => .behind fun right => .behind fun next => ?_
    split
    · exact .behind fun _ => .behind fun chained => .behind fun span => allowed_fail _
    · exact binaryNode_allowed op left right
  · exact allowed_answer lowLeft

/-- Prefix operators build on the operand, which is passed on where there are none. -/
theorem applyPrefixes_allowed {operand : Measured} (low : limits.allows operand.height = true)
    (ops : List Token) : Allowed limits (applyPrefixes limits operand ops) := by
  cases ops with
  | nil => exact allowed_answer low
  | cons op ops => exact .behind fun inner => .behind fun span => build_allowed _ _

variable {expression : Parse Measured} (leaves : limits.allows 1 = true)
include leaves

/-- Primary expressions have allowed heights if nested ones have. -/
theorem primary_allowed : Allowed limits (primary limits expression) := by
  refine .behind fun token => ?_
  split
  · exact .behind fun _ => allowed_answer leaves
  · split
    · refine .behind fun _ => .behind fun _ => .behind fun _ => .behind fun items => ?_
      exact .behind fun _ => .behind fun _ => .behind fun _ => build_allowed _ _
    · split
      · refine .behind fun _ => .behind fun _ => .behind fun _ => .behind fun _ => ?_
        exact .behind fun _ => .behind fun _ => build_allowed _ _
      · exact allowed_fail _

/-- Concatenations have allowed heights if nested expressions have. -/
theorem concatenation_allowed : Allowed limits (concatenation limits expression) := by
  have prefixed : Allowed limits (unary limits expression) :=
    .behind fun _ => .behind fun ops => .bind (primary_allowed leaves) fun operand low =>
      applyPrefixes_allowed low ops
  exact leftAssociative_allowed (leftAssociative_allowed (leftAssociative_allowed prefixed))

/-- Comparisons have allowed heights if nested expressions have. -/
theorem comparison_allowed : Allowed limits (comparison limits expression) :=
  nonAssociative_allowed (concatenation_allowed leaves) _

end SinosLang.Parse
