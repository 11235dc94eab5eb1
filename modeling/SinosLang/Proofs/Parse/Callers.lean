import SinosLang.Parse.Caller
import SinosLang.Proofs.Parse.Lookups
import SinosLang.Proofs.Parse.Nesting

/-!
# Heights that are checked from call to call

A parser is called again and again, and of what it has made only some nodes stay alive. The height
that is computed for a node is never too small, so no tree that is too tall is ever answered with.
Once a node with an entry has gone, its address may be given out again, and then a height that is
computed may be too large. As long as all nodes with an entry are alive, which they are in the first
call, each height that is computed is the real one, and a call ends as the rule of the grammar does.

Main statement: `heights_checked`.
-/

set_option autoImplicit false

namespace SinosLang

open SinosLang.Parser (AllRecorded Agrees TracksFrom)
open Parse (Rule)

/-- What a parser may be called with: a rule of the grammar, or a tree of an earlier call that is to
form a statement with its semicolon. -/
inductive Demand
  | parse (rule : Rule)
  | finish (expr : Placed)

namespace Demand

/-- What the parser does, looking heights up. -/
def action (limits : Limits) (allocator : Allocator) : Demand → Parser.Action Placed
  | parse rule => Parser.rule limits allocator rule
  | finish expr => (Builder.remembering limits allocator).expressionStatement expr

/-- The call of the grammar, which carries heights along. -/
def measured : Demand → Parse.Call
  | parse rule => .parse rule
  | finish expr => .finish expr.measured

/-- Only a tree that is held can be handed over. -/
def Possible (held : List Placed) : Demand → Prop
  | parse _ => True
  | finish expr => expr ∈ held

end Demand

namespace Caller

/-- The callers that there can be of one parser over a source. If it is required that heights are
exact, no node with an entry has ever been let go. -/
inductive Reached (limits : Limits) (allocator : Allocator) (source : Source) (exact : Prop) :
    Caller → Prop
  | start : Reached limits allocator source exact (.start source)
  | call {caller : Caller} {demand : Demand} : Reached limits allocator source exact caller →
    demand.Possible caller.held →
    Reached limits allocator source exact (caller.call (demand.action limits allocator)).2
  | ask {caller : Caller} {α : Type} (action : Parse α) :
    Reached limits allocator source exact caller →
    Reached limits allocator source exact (caller.ask action).2
  | release {caller : Caller} (wanted : Placed → Bool) (others : List Address) :
    Reached limits allocator source exact caller →
    (exact → (caller.release wanted others).parser.memory.Intact) →
    Reached limits allocator source exact (caller.release wanted others)

/-- All trees that are held are recorded. -/
structure Tidy (limits : Limits) (exact : Prop) (caller : Caller) : Prop where
  keeps : caller.parser.memory.Keeps exact
  recorded : AllRecorded limits exact caller.parser.memory caller.held

end Caller

/-- What the checks of one call, the latest first, come to. Some pass, and after them at most one
refuses its node, with which the call has failed. -/
structure HeightsChecked (exact : Prop) (measured : Except Failure Measured × Cursor)
    (before : Caller) (outcome : Except Failure Placed) (after : Caller)
    (passed : List HeightCheck) (refused? : Option HeightCheck) : Prop where
  checks_eq : after.parser.memory.checks =
    refused?.toList ++ passed ++ before.parser.memory.checks
  /-- The height that is computed for a node is never less than its height. -/
  le : ∀ check ∈ refused?.toList ++ passed, check.node.height ≤ check.computed
  /-- It is its height, if no node with an entry has gone. -/
  eq : exact → ∀ check ∈ refused?.toList ++ passed, check.computed = check.node.height
  passed_low : ∀ check ∈ passed, check.computed ≤ 256
  refused_high : ∀ check ∈ refused?, 256 < check.computed ∧
    outcome = .error (.diagnostic ⟨.tooDeep, check.node.span⟩)
  /-- Every node of a tree that is answered with satisfies the bound. -/
  low : ∀ tree, outcome = .ok tree → ∀ node ∈ tree.node.preorder, node.height ≤ 256
  /-- The call ends as it does with the real heights, unless a node is refused that is not too
  tall. -/
  same : (outcome.map Placed.measured, after.parser.cursor) = measured ∨
    ∃ check ∈ refused?, check.node.height ≤ 256

section Memories

variable {limits : Limits} {exact : Prop} {memory : Memory} {trees : List Placed}

/-- Noting a check leaves all trees recorded. -/
theorem Parser.AllRecorded.keepCheck (recorded : AllRecorded limits exact memory trees)
    (check : HeightCheck) : AllRecorded limits exact (memory.keepCheck check) trees :=
  fun tree isIn => ⟨(recorded tree isIn).alive, (recorded tree isIn).low, (recorded tree isIn).le,
    (recorded tree isIn).eq⟩

/-- Trees that are kept alive stay recorded. -/
theorem Parser.AllRecorded.retain {kept : List Address}
    (recorded : AllRecorded limits exact memory trees)
    (areKept : ∀ tree ∈ trees, tree.address ∈ kept) :
    AllRecorded limits exact (memory.retain kept) trees :=
  fun tree isIn =>
    ⟨Memory.mem_retain_alive.mpr ⟨(recorded tree isIn).alive, areKept tree isIn⟩,
      (recorded tree isIn).low, (recorded tree isIn).le, (recorded tree isIn).eq⟩

end Memories

section Calls

variable {limits : Limits} {allocator : Allocator} {source : Source} {exact : Prop}
  {caller : Caller} {demand : Demand}

namespace Caller

/-- A caller that has not called yet is tidy. -/
theorem Tidy.start (source : Source) : (start source).Tidy limits exact where
  keeps := ⟨List.forall_mem_nil _, fun _ => List.forall_mem_nil _⟩
  recorded := List.forall_mem_nil _

/-- A call goes along with that of the grammar. -/
theorem Tidy.agrees (tidy : caller.Tidy limits exact) (allocator : Allocator)
    (leaves : limits.allows 1 = true) (possible : demand.Possible caller.held) :
    Agrees limits exact Placed.measured (fun memory tree => tree.Recorded limits exact memory)
      caller.parser.memory (demand.action limits allocator caller.parser)
      (demand.measured.action limits caller.parser.cursor) := by
  have tracks : TracksFrom limits exact caller.parser.memory (demand.action limits allocator)
      (demand.measured.action limits) := by
    cases demand with
    | parse rule => exact Parser.rule_tracks exact allocator leaves rule _
    | finish expr =>
      exact Parser.expressionStatement_follows allocator (tidy.recorded expr possible)
  exact tracks caller.parser tidy.keeps (.refl _)

/-- All trees that are held after a call are recorded. -/
theorem Tidy.call (tidy : caller.Tidy limits exact) (leaves : limits.allows 1 = true)
    (possible : demand.Possible caller.held) :
    (caller.call (demand.action limits allocator)).2.Tidy limits exact := by
  have agrees := tidy.agrees allocator leaves possible
  unfold Caller.call
  generalize demand.action limits allocator caller.parser = outcome at agrees ⊢
  generalize demand.measured.action limits caller.parser.cursor = measured at agrees
  cases agrees with
  | ok keeps grows recorded =>
    exact ⟨keeps, List.forall_mem_cons.mpr ⟨recorded, tidy.recorded.mono grows⟩⟩
  | error keeps grows => exact ⟨keeps, tidy.recorded.mono grows⟩
  | refused keeps grows =>
    exact ⟨(keeps.occupy _).keepCheck _,
      (tidy.recorded.mono (grows.trans (.occupy _ _))).keepCheck _⟩

/-- An action on the cursor alone leaves a caller tidy. -/
theorem Tidy.ask (tidy : caller.Tidy limits exact) {α : Type} (action : Parse α) :
    (caller.ask action).2.Tidy limits exact :=
  ⟨tidy.keeps, tidy.recorded⟩

/-- A caller that lets some of its trees go is still tidy, if exact heights do not need what has
gone. -/
theorem Tidy.release (tidy : caller.Tidy limits exact) (wanted : Placed → Bool)
    (others : List Address)
    (intact : exact → (caller.release wanted others).parser.memory.Intact) :
    (caller.release wanted others).Tidy limits exact where
  keeps := ⟨tidy.keeps.positive, intact⟩
  recorded := by
    refine Parser.AllRecorded.retain (fun tree isIn => ?_) fun tree isIn => ?_
    · exact tidy.recorded tree (List.mem_of_mem_filter isIn)
    · exact List.mem_append_left _ (List.mem_flatMap.mpr ⟨tree, isIn, List.mem_cons_self⟩)

/-- Every caller that can be reached is tidy. -/
theorem Reached.tidy (leaves : limits.allows 1 = true)
    (reached : caller.Reached limits allocator source exact) : caller.Tidy limits exact := by
  induction reached with
  | start => exact .start source
  | call _ possible ih => exact ih.call leaves possible
  | ask action _ ih => exact ih.ask action
  | release wanted others _ intact ih => exact ih.release wanted others intact

end Caller

/-- A call in which all checks pass. -/
theorem HeightsChecked.of_passed (before after : Caller) (outcome : Except Failure Placed)
    (grows : before.parser.memory.Grows .standard exact after.parser.memory)
    (low : ∀ tree, outcome = .ok tree → Limits.standard.allows tree.node.height = true) :
    ∃ passed, HeightsChecked exact (outcome.map Placed.measured, after.parser.cursor) before outcome
      after passed none := by
  obtain ⟨passed, checks_eq, allPassed⟩ := grows.checks
  refine ⟨passed, checks_eq, ?_, ?_, ?_, nofun, ?_, .inl rfl⟩
  · exact fun check isIn => (allPassed check isIn).1.le
  · exact fun isExact check isIn => (allPassed check isIn).1.eq isExact
  · exact fun check isIn => Limits.standard_allows_iff.mp (allPassed check isIn).2
  · exact fun tree answered node isIn => (Node.height_le_of_mem_preorder isIn).trans
      (Limits.standard_allows_iff.mp (low tree answered))

/-- Whoever calls a parser, in whatever order and whatever becomes of the nodes that nobody holds: no
height that is computed is too small, and none is too large before a node with an entry has gone.
So no tree that is too tall is answered with, and before that none is refused that is not. -/
theorem heights_checked (reached : caller.Reached .standard allocator source exact)
    (possible : demand.Possible caller.held) :
    ∃ passed refused?, HeightsChecked exact
      (demand.measured.action .standard caller.parser.cursor) caller
      (caller.call (demand.action .standard allocator)).1
      (caller.call (demand.action .standard allocator)).2 passed refused? := by
  have tidy := reached.tidy rfl
  have agrees := tidy.agrees allocator rfl possible
  unfold Caller.call
  generalize demand.action .standard allocator caller.parser = outcome at agrees ⊢
  generalize demand.measured.action .standard caller.parser.cursor = measured at agrees ⊢
  cases agrees with
  | @ok tree after _ grows recorded =>
    obtain ⟨passed, checked⟩ :=
      HeightsChecked.of_passed caller ⟨after, tree :: caller.held⟩ (.ok tree) grows
        fun _ answered => Except.ok.inj answered ▸ recorded.low
    exact ⟨passed, none, checked⟩
  | @error failure after _ grows =>
    obtain ⟨passed, checked⟩ :=
      HeightsChecked.of_passed caller ⟨after, caller.held⟩ (.error failure) grows nofun
    exact ⟨passed, none, checked⟩
  | @refused check middle address cursor _ _ grows sound notAllowed same =>
    obtain ⟨passed, checks_eq, allPassed⟩ := grows.checks
    have high : 256 < check.computed :=
      Nat.lt_of_not_le fun le => Bool.eq_false_iff.mp notAllowed (Limits.standard_allows_iff.mpr le)
    refine ⟨passed, some check, ⟨congrArg (check :: ·) checks_eq, ?_, ?_, ?_, ?_, nofun, ?_⟩⟩
    · exact List.forall_mem_cons.mpr ⟨sound.le, fun check isIn => (allPassed check isIn).1.le⟩
    · exact fun isExact => List.forall_mem_cons.mpr
        ⟨sound.eq isExact, fun check isIn => (allPassed check isIn).1.eq isExact⟩
    · exact fun check isIn => Limits.standard_allows_iff.mp (allPassed check isIn).2
    · rintro _ ⟨⟩
      exact ⟨high, rfl⟩
    · by_cases low : check.node.height ≤ 256
      · exact .inr ⟨check, rfl, low⟩
      · exact .inl (same (Bool.eq_false_iff.mpr fun allowed =>
          low (Limits.standard_allows_iff.mp allowed))).symm

end Calls

end SinosLang
