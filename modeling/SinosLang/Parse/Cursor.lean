import SinosLang.Stream
import SinosLang.Node.Basic

/-!
# The parser's cursor

The parser sees one token ahead. Its cursor holds that token once it has been asked for, the
readings still to come, and the number of open brackets. A parsing action reads and moves the
cursor; when it fails, the cursor stays where the failure left it, so parsing can be taken up again
from there.
-/

set_option autoImplicit false

namespace SinosLang

/-- The state of a parse: the lookahead token if it has been asked for, the readings behind it, the
place that the lexer has reached, and the number of open brackets. -/
structure Cursor where
  source : Source
  lookahead : Option Token
  upcoming : List Reading
  position : Nat
  nesting : Int

namespace Cursor

/-- The cursor at the start of a source. -/
def start (source : Source) : Cursor where
  source := source
  lookahead := none
  upcoming := (Stream.startingAt source 0).readings
  position := 0
  nesting := 0

/-- The token that marks the end of the source. -/
def endToken (cursor : Cursor) : Token where
  kind := .eof
  value := []
  span := ⟨cursor.source.size, 0⟩

end Cursor

/-- A parsing action: it answers or fails, and leaves a cursor in either case. -/
def Parse (α : Type) : Type :=
  Cursor → Except Failure α × Cursor

/-- The limits that a parse keeps: how many brackets may be open at once and how tall a tree may
be. -/
structure Limits where
  brackets : Option Nat
  height : Option Nat
deriving DecidableEq, Repr

/-- The limits of the language. -/
def Limits.standard : Limits where
  brackets := some 40
  height := some 256

/-- No limits at all. -/
def Limits.unlimited : Limits where
  brackets := none
  height := none

/-- Whether so many open brackets leave no room for another one. -/
def Limits.isFull (limits : Limits) (nesting : Int) : Bool :=
  match limits.brackets with
  | some most => most ≤ nesting
  | none => false

/-- Whether a tree may have a height. -/
def Limits.allows (limits : Limits) (height : Nat) : Bool :=
  match limits.height with
  | some most => height ≤ most
  | none => true

/-- A parsed tree with the height that was recorded when it was built. -/
structure Measured where
  node : Node
  height : Nat

namespace Parse

variable {α β : Type}

/-- The action that answers at once. -/
def answer (value : α) : Parse α :=
  fun cursor => (.ok value, cursor)

/-- One action after another; a failure of the first one ends both. -/
def andThen (action : Parse α) (next : α → Parse β) : Parse β :=
  fun cursor =>
    match action cursor with
    | (.ok value, after) => next value after
    | (.error failure, after) => (.error failure, after)

instance : Monad Parse where
  pure := answer
  bind := andThen

/-- The action that fails. -/
def fail (failure : Failure) : Parse α :=
  fun cursor => (.error failure, cursor)

/-- The action that fails with a diagnostic. -/
def report (fault : Fault) (span : Span) : Parse α :=
  fail (.diagnostic ⟨fault, span⟩)

/-- Puts the next reading into the lookahead slot; behind the last one, the end. If that reading is
a failure, it is passed over and the slot keeps its token. -/
def pull : Parse Token := fun cursor =>
  match cursor.upcoming with
  | [] =>
    let token := cursor.endToken
    (.ok token, { cursor with lookahead := some token, position := cursor.source.size })
  | reading :: later =>
    match reading.outcome with
    | .ok token =>
      (.ok token,
        { cursor with lookahead := some token, upcoming := later, position := reading.position })
    | .error failure =>
      (.error failure, { cursor with upcoming := later, position := reading.position })

/-- The lookahead token, which is not consumed. -/
def current : Parse Token := fun cursor =>
  match cursor.lookahead with
  | some token => (.ok token, cursor)
  | none => pull cursor

/-- Consumes the lookahead token. The end is never consumed. -/
def advance : Parse Token := do
  let token ← current
  if token.kind = .eof then
    return token
  else
    let _ ← pull
    return token

/-- Consumes the lookahead token if it is of one of the kinds. -/
def accept (kinds : List TokenKind) : Parse (Option Token) := do
  let token ← current
  if kinds.contains token.kind then
    return some (← advance)
  else
    return none

/-- Consumes a token of one of the kinds, or reports a fault at the lookahead token. -/
def expectAny (kinds : List TokenKind) (fault : Fault) : Parse Token := do
  match ← accept kinds with
  | some token => return token
  | none => report fault (← current).span

/-- Consumes a token of a kind, or reports a fault at the lookahead token. -/
def expect (kind : TokenKind) (fault : Fault) : Parse Token :=
  expectAny [kind] fault

/-- Enters a bracket; reports one that exceeds the limit. -/
def openBracket (limits : Limits) (bracket : Token) : Parse Unit := fun cursor =>
  if limits.isFull cursor.nesting then
    report .tooDeep bracket.span cursor
  else
    (.ok (), { cursor with nesting := cursor.nesting + 1 })

/-- Leaves a bracket. -/
def closeBracket : Parse Unit := fun cursor =>
  (.ok (), { cursor with nesting := cursor.nesting - 1 })

/-- The span from the start of one span to the end of another. -/
def cover (first last : Span) : Parse Span := fun cursor =>
  ((cursor.source.cover first last).mapError .badRange, cursor)

/-- A leaf; its height is one. -/
def leaf (node : Node) : Measured :=
  ⟨node, 1⟩

/-- Records the height of a node that was made of the given parts; reports one that is too tall. -/
def build (limits : Limits) (node : Node) (parts : List Measured) : Parse Measured :=
  let height := (parts.map Measured.height).foldr max 0 + 1
  if limits.allows height then
    answer ⟨node, height⟩
  else
    report .tooDeep node.span

/-- A bound on the tokens still to be consumed, and so on the rounds of any loop that consumes one
in each. -/
def budget : Parse Nat := fun cursor =>
  (.ok (cursor.upcoming.length + 2), cursor)

/-- A value without effect leaves the cursor where it is. -/
@[simp]
theorem pure_apply (value : α) (cursor : Cursor) :
    (pure value : Parse α) cursor = (.ok value, cursor) := rfl

/-- An answer leaves the cursor where it is. -/
@[simp]
theorem answer_apply (value : α) (cursor : Cursor) :
    answer value cursor = (.ok value, cursor) := rfl

/-- A failure leaves the cursor where it is. -/
@[simp]
theorem fail_apply (failure : Failure) (cursor : Cursor) :
    (fail failure : Parse α) cursor = (.error failure, cursor) := rfl

/-- An action goes on from where the one before it stopped. -/
theorem bind_apply_of_ok {action : Parse α} {next : α → Parse β} {cursor after : Cursor}
    {value : α} (h : action cursor = (.ok value, after)) :
    (action >>= next) cursor = next value after := by
  show andThen action next cursor = next value after
  simp [andThen, h]

/-- A failure ends whatever would come after it. -/
theorem bind_apply_of_error {action : Parse α} {next : α → Parse β} {cursor after : Cursor}
    {failure : Failure} (h : action cursor = (.error failure, after)) :
    (action >>= next) cursor = (.error failure, after) := by
  show andThen action next cursor = (.error failure, after)
  simp [andThen, h]

/-- A sequence of two actions succeeds exactly when both do, the second from where the first one
stopped. -/
theorem bind_eq_ok {action : Parse α} {next : α → Parse β} {cursor final : Cursor} {result : β} :
    (action >>= next) cursor = (.ok result, final) ↔
      ∃ value after,
        action cursor = (.ok value, after) ∧ next value after = (.ok result, final) := by
  constructor
  · intro h
    match first : action cursor with
    | (.ok value, after) =>
      rw [bind_apply_of_ok first] at h
      exact ⟨value, after, rfl, h⟩
    | (.error failure, after) =>
      rw [bind_apply_of_error first] at h
      cases h
  · rintro ⟨value, after, first, second⟩
    rw [bind_apply_of_ok first, second]

end Parse

end SinosLang
