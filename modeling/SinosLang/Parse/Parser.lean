import SinosLang.Parse.Memory
import SinosLang.Parse.Rules

/-!
# A parser with its memory

A parser that is called again and again does not carry heights along with its trees: a node knows its
address, and whenever a node is built, the heights of its children are looked up under their
addresses. What does not build a node is done on the cursor alone.
-/

set_option autoImplicit false

namespace SinosLang

/-- A parser: its cursor, and the memory of the nodes that it has made. -/
structure Parser where
  cursor : Cursor
  memory : Memory

namespace Parser

/-- A fresh parser at the start of a source. -/
def start (source : Source) : Parser where
  cursor := .start source
  memory := .empty

/-- What a parser does: it answers or fails, and is left in some state in either case. -/
def Action (α : Type) : Type :=
  Parser → Except Failure α × Parser

section Actions

variable {α β : Type}

/-- The action that answers at once. -/
def answer (value : α) : Action α :=
  fun parser => (.ok value, parser)

/-- One action after another; a failure of the first one ends both. -/
def andThen (action : Action α) (next : α → Action β) : Action β :=
  fun parser =>
    match action parser with
    | (.ok value, after) => next value after
    | (.error failure, after) => (.error failure, after)

instance : Monad Action where
  pure := answer
  bind := andThen

/-- What is done on the cursor alone. -/
def onCursor (action : Parse α) : Action α := fun parser =>
  let (outcome, after) := action parser.cursor
  (outcome, { parser with cursor := after })

variable {action : Action α} {next : α → Action β} {parser after : Parser}

/-- An action goes on from where the one before it stopped. -/
theorem bind_apply_of_ok {value : α} (run : action parser = (.ok value, after)) :
    (action >>= next) parser = next value after := by
  show andThen action next parser = next value after
  simp [andThen, run]

/-- A failure ends whatever would come after it. -/
theorem bind_apply_of_error {failure : Failure} (run : action parser = (.error failure, after)) :
    (action >>= next) parser = (.error failure, after) := by
  show andThen action next parser = (.error failure, after)
  simp [andThen, run]

end Actions

section Nodes

variable (allocator : Allocator)

/-- A new leaf. Nothing is entered under its address. -/
def leaf (node : Node) : Action Placed := fun parser =>
  let address := allocator.choose parser.memory
  (.ok ⟨node, address, []⟩, { parser with memory := parser.memory.occupy address })

/-- A new node with the given children. Its height is computed from what is entered under their
addresses; if it is allowed, it is entered under the address of the node, and if it is not, it is
reported. -/
def build (limits : Limits) (node : Node) (parts : List Placed) : Action Placed := fun parser =>
  let address := allocator.choose parser.memory
  let height := (parts.map fun part => parser.memory.height part.address).foldr max 0 + 1
  let memory := (parser.memory.occupy address).keepCheck ⟨node, height⟩
  if limits.allows height then
    (.ok ⟨node, address, parts.flatMap Placed.addresses⟩,
      { parser with memory := memory.enter address height })
  else
    (.error (.diagnostic ⟨.tooDeep, node.span⟩), { parser with memory := memory })

end Nodes

end Parser

/-- Looks heights up in a memory. A loop takes as many rounds as there can be tokens still to come. -/
abbrev Builder.remembering (limits : Limits) (allocator : Allocator) :
    Builder Parser.Action Placed where
  limits := limits
  onCursor := Parser.onCursor
  node := Placed.node
  leaf := Parser.leaf allocator
  build := Parser.build allocator limits
  rounds := Parser.onCursor Parse.budget

end SinosLang
