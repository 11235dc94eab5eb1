import SinosLang.Proofs.Parse.Simulation

/-!
# What holds of the steps holds of the rules

The rules of the grammar are put together from a few actions on the cursor by sequencing and by
loops with a bounded number of rounds. A relation between actions that holds of those few and is
kept by sequencing therefore holds of every rule. The two sides may keep different limits and may
start from different cursors, so that their loops have different numbers of rounds to go; running out
of rounds has to be related to whatever is related to something else.

This is the case of two runs side by side in which they answer with the same.

Main statement: `Congruence.program`.
-/

set_option autoImplicit false

namespace SinosLang

/-- Spans are alike if they are the same. -/
def Likeness.same : Likeness where
  start index index' := index = index'
  stop stop stop' := stop = stop'
  view span := span
  view' span := span
  view_eq span span' index_eq stop_eq := by
    obtain ⟨index, length⟩ := span
    obtain ⟨index', length'⟩ := span'
    simp only [Span.stop] at index_eq stop_eq
    subst index_eq
    rw [Nat.add_left_cancel stop_eq]

namespace Likeness

/-- Spans that are alike by being the same are equal. -/
theorem Spans.eq_of_same {span span' : Span} (alike : same.Spans span span') : span = span' :=
  alike.eq

/-- Tokens that are alike at the same spans are equal. -/
theorem Tokens.eq_of_same {token token' : Token} (alike : same.Tokens token token') :
    token = token' := by
  obtain ⟨kind, value, span⟩ := token
  obtain ⟨kind', value', span'⟩ := token'
  obtain rfl : kind = kind' := alike.kind_eq
  obtain rfl : value = value' := alike.value_eq
  obtain rfl : span = span' := alike.spans.eq_of_same
  rfl

/-- Trees that look the same with all their spans are equal. -/
theorem eq_of_mapSpans_same {node node' : Node}
    (alike : node.mapSpans same.view = node'.mapSpans same.view') : node = node' := by
  rwa [show same.view = id from rfl, show same.view' = id from rfl, Node.mapSpans_id,
    Node.mapSpans_id] at alike

/-- Trees that are alike at the same spans are equal. -/
theorem Trees.eq_of_same {result result' : Measured} (alike : same.Trees result result') :
    result = result' := by
  obtain ⟨node, height⟩ := result
  obtain ⟨node', height'⟩ := result'
  obtain rfl : node = node' := eq_of_mapSpans_same alike.node
  obtain rfl : height = height' := alike.height_eq
  rfl

/-- Lists of trees that are alike one by one at the same spans are equal. -/
theorem eq_of_forall₂_same {results results' : List Measured}
    (alike : List.Forall₂ same.Trees results results') : results = results' := by
  induction alike with
  | nil => rfl
  | cons first _ ih => rw [first.eq_of_same, ih]

end Likeness

namespace Parse

/-- A relation between actions, one side under each of two limits, that holds of the actions on the
cursor and is kept when actions are put together. -/
structure Congruence (first second : Limits) (rel : ∀ ⦃α : Type⦄, Parse α → Parse α → Prop) :
    Prop where
  pure {α : Type} (value : α) : rel (Pure.pure value) (Pure.pure value)
  bind {α β : Type} {action action' : Parse α} {next next' : α → Parse β} :
    rel action action' → (∀ value, rel (next value) (next' value)) →
    rel (action >>= next) (action' >>= next')
  current : rel Parse.current Parse.current
  pull : rel Parse.pull Parse.pull
  report {α : Type} (fault : Fault) (span : Span) :
    rel (Parse.report fault span : Parse α) (Parse.report fault span)
  openBracket (bracket : Token) :
    rel (Parse.openBracket first bracket) (Parse.openBracket second bracket)
  closeBracket : rel Parse.closeBracket Parse.closeBracket
  cover (start stop : Span) : rel (Parse.cover start stop) (Parse.cover start stop)
  build (node : Node) (parts : List Measured) :
    rel (Parse.build first node parts) (Parse.build second node parts)
  budget {α : Type} {next next' : Nat → Parse α} :
    (∀ rounds rounds', rel (next rounds) (next' rounds')) →
    rel (Parse.budget >>= next) (Parse.budget >>= next')
  exhausted {α : Type} : rel (fail .depthExhausted : Parse α) (fail .depthExhausted)
  exhausted_left {α : Type} {action action' : Parse α} :
    rel action action' → rel (fail .depthExhausted) action'
  exhausted_right {α : Type} {action action' : Parse α} :
    rel action action' → rel action (fail .depthExhausted)

namespace Congruence

variable {first second : Limits} {rel : ∀ ⦃α : Type⦄, Parse α → Parse α → Prop}
  (congruence : Congruence first second rel)
include congruence

omit congruence in
/-- Two actions, whose answers may be of different types, are related if whatever goes on from
related answers leads to related actions. -/
def Continues (rel : ∀ ⦃α : Type⦄, Parse α → Parse α → Prop) ⦃α β : Type⦄ (R : α → β → Prop)
    (action : Parse α) (action' : Parse β) : Prop :=
  ∀ ⦃γ : Type⦄ (next : α → Parse γ) (next' : β → Parse γ),
    (∀ value value', R value value' → rel (next value) (next' value')) →
    rel (action >>= next) (action' >>= next')

/-- Related actions are related in whatever goes on from their answers, if equal answers are. -/
theorem continues_of_eq {α : Type} {R : α → α → Prop} {action action' : Parse α}
    (related : rel action action') (refl : ∀ value, R value value) :
    Continues rel R action action' :=
  fun _ _ _ goesOn => congruence.bind related fun value => goesOn value value (refl value)

/-- A congruence is a simulation that answers with the same on both sides. -/
theorem simulation : Simulation .same first second (Continues rel) where
  pure alike _ next next' goesOn := by
    rw [pure_bind, pure_bind]
    exact goesOn _ _ alike
  bind related step γ last last' goesOn := by
    rw [bind_assoc, bind_assoc]
    exact related _ _ fun value value' alike => step value value' alike _ _ goesOn
  current := congruence.continues_of_eq congruence.current fun _ => ⟨rfl, rfl, rfl, rfl⟩
  pull := congruence.continues_of_eq congruence.pull fun _ => ⟨rfl, rfl, rfl, rfl⟩
  report _ alike γ next next' _ := by
    obtain rfl := alike.eq_of_same
    exact congruence.report _ _
  openBracket alike := by
    obtain rfl := alike.eq_of_same
    exact congruence.continues_of_eq (congruence.openBracket _) fun _ => rfl
  closeBracket := congruence.continues_of_eq congruence.closeBracket fun _ => rfl
  cover starts stops := by
    obtain rfl := starts.eq_of_same
    obtain rfl := stops.eq_of_same
    exact congruence.continues_of_eq (congruence.cover _ _) fun _ => ⟨rfl, rfl⟩
  build nodes _ parts := by
    obtain rfl := Likeness.eq_of_mapSpans_same nodes
    obtain rfl := Likeness.eq_of_forall₂_same parts
    exact congruence.continues_of_eq (congruence.build _ _) fun _ => ⟨rfl, rfl, rfl, rfl⟩
  budget related γ next next' goesOn := by
    rw [bind_assoc, bind_assoc]
    exact congruence.budget fun rounds rounds' => related rounds rounds' _ _ goesOn
  exhausted _ _ _ := congruence.exhausted
  exhausted_left related _ next next' goesOn :=
    congruence.exhausted_left (related next next' goesOn)
  exhausted_right related _ next next' goesOn :=
    congruence.exhausted_right (related next next' goesOn)

/-- A congruence relates the parses of programs. -/
theorem program : rel (Parse.program first) (Parse.program second) := by
  have related := congruence.simulation.program ⟨rfl, rfl⟩ Pure.pure Pure.pure
  rw [bind_pure, bind_pure] at related
  apply related
  intro result result' alike
  obtain rfl := alike.eq_of_same
  exact congruence.pure result

end Congruence

end Parse

end SinosLang
