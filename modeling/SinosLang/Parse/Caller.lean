import SinosLang.Parse.Parser

/-!
# Calling a parser again and again

Somebody calls one parser any number of times and goes on after calls that fail. What a call answers
with stays alive for as long as the caller holds it. The nodes that nobody holds, those that a call
has made before it failed among them, are gone sooner or later.
-/

set_option autoImplicit false

namespace SinosLang

/-- Somebody who calls a parser, with the trees that are still held, the latest first. -/
structure Caller where
  parser : Parser
  held : List Placed

namespace Caller

/-- Before the first call of a fresh parser. -/
def start (source : Source) : Caller where
  parser := .start source
  held := []

/-- Calls the parser. The tree that it answers with is held from then on. -/
def call (action : Parser.Action Placed) (caller : Caller) : Except Failure Placed × Caller :=
  match action caller.parser with
  | (.ok tree, after) => (.ok tree, { parser := after, held := tree :: caller.held })
  | (.error failure, after) => (.error failure, { caller with parser := after })

/-- Asks the parser for something that makes no node. -/
def ask {α : Type} (action : Parse α) (caller : Caller) : Except Failure α × Caller :=
  let (outcome, after) := Parser.onCursor action caller.parser
  (outcome, { caller with parser := after })

/-- Holds on to the wanted trees alone. Besides their nodes only those at some other addresses stay
alive. -/
def release (wanted : Placed → Bool) (others : List Address) (caller : Caller) : Caller :=
  let held := caller.held.filter wanted
  let kept := held.flatMap Placed.addresses ++ others
  { parser := { caller.parser with memory := caller.parser.memory.retain kept }, held := held }

end Caller

end SinosLang
