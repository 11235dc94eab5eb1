import SinosLang.Proofs.Parse.Following
import SinosLang.Proofs.Parse.Lasting

/-!
# A parse ends within bounds

The grammar is a recursion that nothing bounds from outside. Still it ends on every source: each
rule that answers and each round of a loop that is followed by another one has consumed a token, and
no more than forty brackets are open at once. So a parse consumes the tokens of its source at most,
has at most forty-one calls of the rule for expressions active, and comes to the same under a clock
that is set to these numbers.

Main statement: `Source.parsing_bounded`.
-/

set_option autoImplicit false

namespace SinosLang

open Cursor (Spends)
open Parse

/-- The number of tokens of a source before the end or the first fault. -/
def Source.tokenCount (source : Source) : Nat :=
  source.tokenize.tokens.countP (·.kind ≠ .eof)

namespace Cursor

/-- The tokens of readings are those before the first failure, and the end if there is none. -/
theorem countP_ofReadings {finish : Stream} {final : Token} (ends : finish.endToken = .ok final)
    (isEnd : final.kind = .eof) {readings : List Reading}
    (inner : ∀ reading ∈ readings, ∀ token, reading.outcome = .ok token → token.kind ≠ .eof) :
    (Tokenization.ofReadings finish readings).tokens.countP (·.kind ≠ .eof) =
      ((readings.map Reading.outcome).takeWhile Except.isOk).length := by
  induction readings with
  | nil => simp [Tokenization.ofReadings, ends, isEnd]
  | cons reading readings ih =>
    have later := ih fun other isIn => inner other (List.mem_cons_of_mem _ isIn)
    unfold Tokenization.ofReadings
    cases outcome_eq : reading.outcome with
    | ok token =>
      have notEnd := inner reading List.mem_cons_self token outcome_eq
      rw [List.map_cons, outcome_eq, List.takeWhile_cons_of_pos rfl, List.length_cons, ← later]
      exact List.countP_cons_of_pos (by simpa using notEnd)
    | error failure =>
      rw [List.map_cons, outcome_eq, List.takeWhile_cons_of_neg Bool.false_ne_true]
      rfl

/-- At the start of a source, all its tokens are ahead. -/
theorem supply_start (source : Source) : (start source).supply = source.tokenCount :=
  (countP_ofReadings source.endToken_toEnd rfl (consistent_start source).inner).symm

/-- The rounds and the depth of a parse exceed the number of tokens ahead. -/
theorem supply_lt_budgeted (cursor : Cursor) : cursor.supply < budgeted cursor := by
  have shorter : cursor.supply ≤ cursor.pending.length := (List.takeWhile_prefix _).length_le
  unfold pending at shorter
  unfold budgeted
  split at shorter
  · rw [List.length_map] at shorter
    omega
  · split at shorter
    · exact Nat.lt_of_le_of_lt shorter (Nat.succ_pos _)
    · rw [List.length_cons, List.length_map] at shorter
      omega

/-- The lexer does not run out of anything. -/
theorem exhausted_not_mem_start (source : Source) :
    .error .depthExhausted ∉ (start source).pending := by
  intro isIn
  obtain ⟨reading, isReading, outcome_eq⟩ := List.mem_map.mp isIn
  have chain := @Stream.readings_chain (.startingAt source 0) (Nat.zero_le _)
  obtain ⟨d, isDiagnostic, _⟩ := (chain.goesOn reading isReading).failure _ outcome_eq
  cases isDiagnostic

/-- A source with few enough tokens is within the terms of its parse. -/
theorem supplied_start {source : Source} {terms : Terms} (few : source.tokenCount < terms.rounds)
    (shallow : terms.limits.Suffices terms.depth (start source)) :
    (start source).Supplied terms where
  consistent := consistent_start source
  clean _ := exhausted_not_mem_start source
  few _ := by
    rw [supply_start]
    exact few
  shallow _ := shallow

end Cursor

namespace Parse

/-- A loop is the repetition of a round, and a round that is followed by another one has consumed a
token. -/
structure Progresses {State Answer : Type} (loop : Nat → State → Parse Answer)
    (round : State → Parse (Turn State Answer)) : Prop where
  loop_eq : loop = cycle round
  consumes : ∀ (state next : State) (complete : Answer → Answer) (cursor after : Cursor),
    cursor.Consistent → round state cursor = (.ok (.again next complete), after) →
    Spends 1 cursor after

/-- All loops of the grammar consume a token in each of their rounds but the last. -/
structure LoopsProgress (limits : Limits) (expression : Parse Measured) : Prop where
  products : Progresses (extendLeft limits (unary limits expression) productOps)
    (operatorRound limits (unary limits expression) productOps)
  sums : Progresses (extendLeft limits (product limits expression) sumOps)
    (operatorRound limits (product limits expression) sumOps)
  concatenations : Progresses (extendLeft limits (sum limits expression) concatenationOps)
    (operatorRound limits (sum limits expression) concatenationOps)
  prefixes : Progresses (fun rounds _ => prefixRun rounds) prefixRound
  items : Progresses (fun rounds _ => blockItems limits expression rounds)
    (itemRound limits expression)
  statements : Progresses (fun rounds _ => statements limits expression rounds)
    (statementRound limits expression)

/-- The terms of a parse whose rounds and depth need not last. -/
def Terms.lax (limits : Limits) (depth : Nat) : Terms where
  limits := limits
  strict := False
  rounds := 0
  depth := depth

/-- Where nothing has to last, every clock provides enough. -/
theorem provides_lax (limits : Limits) (depth : Nat) (rounds : Cursor → Nat) :
    Provides rounds (Terms.lax limits depth) :=
  False.elim

/-- Where nothing has to last, every consistent cursor is within the terms. -/
theorem supplied_lax {limits : Limits} {depth : Nat} {cursor : Cursor}
    (consistent : cursor.Consistent) : cursor.Supplied (Terms.lax limits depth) :=
  ⟨consistent, False.elim, False.elim, False.elim⟩

/-- An expression consumes a token, whether or not it lasts. -/
theorem expression_yields_lax (limits : Limits) (depth : Nat) :
    Yields (Terms.lax limits depth) (expressionWithin limits depth) fun _ => 1 :=
  Clocked.expression_yields depth (provides_lax limits depth budgeted)

/-- What is consumed at least is consumed from every cursor, if nothing has to last. -/
theorem Yields.consumed {α : Type} {limits : Limits} {depth : Nat} {action : Parse α}
    {least : α → Nat} (yields : Yields (Terms.lax limits depth) action least)
    {cursor after : Cursor} {value : α} (consistent : cursor.Consistent)
    (run : action cursor = (.ok value, after)) :
    Spends (least value) cursor after := by
  have ends := yields (supplied_lax consistent)
  unfold Ends at ends
  rw [run] at ends
  exact ends

/-- Every rule that answers has consumed a token, but for a program, which may be empty. -/
theorem Rule.consumed {limits : Limits} {rule : Rule} {cursor after : Cursor} {result : Measured}
    (notProgram : rule ≠ .program) (consistent : cursor.Consistent)
    (run : rule.action limits cursor = (.ok result, after)) : Spends 1 cursor after := by
  obtain ⟨depth, _, action_eq⟩ := Rule.action_eq_clocked limits rule cursor
  rw [action_eq] at run
  have yields := Rule.body_yields (provides_lax limits depth budgeted)
    (Clocked.expression_yields depth (provides_lax limits depth budgeted)) rule
  have consumed := yields.consumed consistent run
  rwa [if_neg notProgram] at consumed

/-- A loop progresses if its rounds consume tokens. -/
theorem progresses_of_yields {limits : Limits} {depth : Nat} {State Answer : Type}
    {loop : Nat → State → Parse Answer} {round : State → Parse (Turn State Answer)}
    (loop_eq : ∀ rounds state, loop rounds state = cycle round rounds state)
    (yields : ∀ state, Yields (Terms.lax limits depth) (round state) Turn.least) :
    Progresses loop round where
  loop_eq := funext fun rounds => funext (loop_eq rounds)
  consumes state _ _ _ _ consistent run := (yields state).consumed consistent run

/-- All loops progress with the expressions of any depth. -/
theorem loopsProgress (limits : Limits) (depth : Nat) :
    LoopsProgress limits (expressionWithin limits depth) := by
  have inner := expression_yields_lax limits depth
  have rules (rule : Rule) := Rule.body_yields (provides_lax limits depth budgeted) inner rule
  have unary : Yields (Terms.lax limits depth) (unary limits _) fun _ => 1 := rules .unary
  have product : Yields (Terms.lax limits depth) (product limits _) fun _ => 1 := rules .product
  have sum : Yields (Terms.lax limits depth) (sum limits _) fun _ => 1 := rules .sum
  exact
    { products := progresses_of_yields (extendLeft_eq_cycle _ _ _) (operatorRound_yields unary)
      sums := progresses_of_yields (extendLeft_eq_cycle _ _ _) (operatorRound_yields product)
      concatenations := progresses_of_yields (extendLeft_eq_cycle _ _ _) (operatorRound_yields sum)
      prefixes := @progresses_of_yields limits depth _ _ _ _
        (fun rounds _ => prefixRun_eq_cycle rounds) fun _ => prefixRound_yields
      items := progresses_of_yields (fun rounds _ => blockItems_eq_cycle _ _ rounds)
        fun _ => itemRound_yields inner
      statements := progresses_of_yields (fun rounds _ => statements_eq_cycle _ _ rounds)
        fun _ => statementRound_yields inner }

/-- Where rounds and depth have to last and do, a rule does not run out of them. -/
theorem Rule.not_exhausted {limits : Limits} {rounds : Cursor → Nat} {most depth : Nat}
    {cursor : Cursor} (provides : Provides rounds ⟨limits, True, most, depth⟩)
    (supplied : cursor.Supplied ⟨limits, True, most, depth⟩) (rule : Rule) :
    (rule.clocked limits rounds depth cursor).1 ≠ .error .depthExhausted := by
  have yields := Rule.body_yields provides (Clocked.expression_yields depth provides) rule
  intro failed
  match run : rule.clocked limits rounds depth cursor with
  | (outcome, after) =>
    rw [run] at failed
    obtain rfl : outcome = .error .depthExhausted := failed
    exact (yields supplied).error run trivial rfl

/-- The recursion settles at the outcome of a rule under a clock that does not run out. -/
theorem Rule.settles {limits : Limits} {rounds : Cursor → Nat} {depth : Nat} {rule : Rule}
    (probe : Probe)
    (lasts : (rule.clocked limits rounds depth probe.cursor).1 ≠ .error .depthExhausted) :
    ∃ after, Settles (fun count => (Calls.within limits count).rule rule) probe
        ((rule.clocked limits rounds depth probe.cursor).1, after) ∧
      after.cursor = (rule.clocked limits rounds depth probe.cursor).2 ∧
      probe.Stops depth after := by
  have follows := Rule.follows limits rounds depth rule
  match run : rule.clocked limits rounds depth probe.cursor with
  | (.ok result, final) =>
    obtain ⟨after, settles, cursor_eq, returns⟩ := follows.ok probe result final run
    have taken_le := (Nat.le_add_right _ _).trans returns.taken_le
    exact ⟨after, settles, cursor_eq, returns.peak_le, taken_le⟩
  | (.error failure, final) =>
    rw [run] at lasts
    exact follows.error probe failure final run fun isIt => lasts (congrArg Except.error isIt)

end Parse

namespace Source

variable (source : Source)

/-- The depth that the limits of the language ask for: one call for the expression itself and one
for each bracket that may be open. -/
theorem suffices_standard {depth : Nat} (enough : 41 ≤ depth) :
    Limits.standard.Suffices depth (Cursor.start source) := by
  refine .inr ⟨40, rfl, ?_, ?_⟩
  · exact Int.natCast_nonneg 40
  · show (40 : Int) < 0 + depth
    omega

/-- With depth for the brackets that are allowed and rounds for all tokens, no rule runs out. -/
theorem clocked_lasts (rule : Rule) {depth rounds : Nat} (deep : 41 ≤ depth)
    (many : source.tokenCount < rounds) :
    (rule.clocked Limits.standard (fun _ => rounds) depth (Cursor.start source)).1 ≠
      .error .depthExhausted :=
  @Rule.not_exhausted _ _ rounds _ _ (fun _ _ few => few)
    (Cursor.supplied_start many (source.suffices_standard deep)) rule

/-- With the rounds of the budget and as much depth, no rule runs out, whatever the limits. -/
theorem action_lasts (limits : Limits) (rule : Rule) {depth : Nat}
    (deep : budgeted (Cursor.start source) ≤ depth) :
    (rule.clocked limits budgeted depth (Cursor.start source)).1 ≠ .error .depthExhausted := by
  have shallow : limits.Suffices depth (Cursor.start source) :=
    .inl ((Cursor.supply_lt_budgeted _).trans_le deep)
  exact @Rule.not_exhausted _ _ (source.tokenCount + 1) _ _
    (fun _ cursor _ => cursor.supply_lt_budgeted)
    (Cursor.supplied_start (Nat.lt_succ_self _) shallow) rule

/-- Under a clock with enough rounds and depth, a rule comes to what it comes to within the budget,
and the recursion settles at the same. -/
theorem clocked_settles (rule : Rule) {depth rounds : Nat} (deep : 41 ≤ depth)
    (many : source.tokenCount < rounds) :
    rule.clocked Limits.standard (fun _ => rounds) depth (Cursor.start source) =
        rule.action Limits.standard (Cursor.start source) ∧
      ∃ after, Settles (fun count => (Calls.within Limits.standard count).rule rule)
          (Probe.start (Cursor.start source))
          ((rule.action Limits.standard (Cursor.start source)).1, after) ∧
        after.cursor = (rule.action Limits.standard (Cursor.start source)).2 ∧
        (Probe.start (Cursor.start source)).Stops depth after := by
  obtain ⟨most, budget, action_eq⟩ :=
    Rule.action_eq_clocked Limits.standard rule (Cursor.start source)
  obtain ⟨after, settles, cursor_eq, stops⟩ :=
    Rule.settles (Probe.start (Cursor.start source)) (source.clocked_lasts rule deep many)
  obtain ⟨after', settles', cursor_eq', _⟩ :=
    Rule.settles (Probe.start (Cursor.start source))
      (source.action_lasts Limits.standard rule budget)
  -- the recursion settles at what either clock comes to, so both come to the same
  obtain ⟨outcome_eq, rfl⟩ := Prod.mk.inj (settles.unique settles')
  have same : rule.clocked Limits.standard (fun _ => rounds) depth (Cursor.start source) =
      rule.action Limits.standard (Cursor.start source) := by
    rw [action_eq]
    exact Prod.ext outcome_eq (cursor_eq.symm.trans cursor_eq')
  rw [← same]
  exact ⟨rfl, after, settles, cursor_eq, stops⟩

/-- A parse ends within bounds. A rule that answers has consumed a token, wherever it started,
unless it is that of a program; each round of a loop that another one follows has, too. From the
start of a source, the recursion of the grammar settles for each rule: it consumes the tokens of the
source at most, has forty-one calls of the rule for expressions at once at most, and comes to the
same as the rule does, also with a depth of forty-one or more and with any number of rounds above
that of the tokens. -/
theorem parsing_bounded :
    (∀ (rule : Rule) (cursor after : Cursor) (result : Measured), rule ≠ .program →
      cursor.Consistent → rule.action Limits.standard cursor = (.ok result, after) →
      Spends 1 cursor after) ∧
    (∀ depth, LoopsProgress Limits.standard (expressionWithin Limits.standard depth)) ∧
    ∀ rule : Rule, ∃ after : Probe,
      Settles (fun count => (Calls.within Limits.standard count).rule rule)
        (Probe.start (Cursor.start source))
        ((rule.action Limits.standard (Cursor.start source)).1, after) ∧
      after.cursor = (rule.action Limits.standard (Cursor.start source)).2 ∧
      after.taken ≤ source.tokenCount ∧ after.peak ≤ 41 ∧
      ∀ depth rounds : Nat, 41 ≤ depth → source.tokenCount < rounds →
        rule.clocked Limits.standard (fun _ => rounds) depth (Cursor.start source) =
          rule.action Limits.standard (Cursor.start source) := by
  refine ⟨?_, loopsProgress Limits.standard, fun rule => ?_⟩
  · intro rule cursor after result notProgram consistent run
    exact Rule.consumed notProgram consistent run
  · obtain ⟨_, after, settles, cursor_eq, peak_le, taken_le⟩ :=
      source.clocked_settles rule (Nat.le_refl 41) (Nat.lt_succ_self source.tokenCount)
    refine ⟨after, settles, cursor_eq, ?_, ?_, fun depth rounds deep many => ?_⟩
    · have start : (Cursor.start source).supply = source.tokenCount := Cursor.supply_start source
      simp only [Probe.start] at taken_le
      omega
    · simpa [Probe.start] using peak_le
    · exact (source.clocked_settles rule deep many).1

/-- A parenthesised name is consumed, and a clock with one round more than there are tokens
lasts. -/
theorem parsing_bounded_group :
    (∃ result after,
      Rule.primary.action Limits.standard (Cursor.start (ofText [] "(x)".toList)) =
        (.ok result, after) ∧
      Spends 1 (Cursor.start (ofText [] "(x)".toList)) after) ∧
    Rule.primary.clocked Limits.standard (fun _ => 4) 41
        (Cursor.start (ofText [] "(x)".toList)) =
      Rule.primary.action Limits.standard (Cursor.start (ofText [] "(x)".toList)) := by
  have bounded := parsing_bounded (ofText [] "(x)".toList)
  have answers : (Rule.primary.action Limits.standard
      (Cursor.start (ofText [] "(x)".toList))).1.isOk = true := by cbv
  have count : (ofText [] "(x)".toList).tokenCount = 3 := by cbv
  constructor
  · rcases run : Rule.primary.action Limits.standard (Cursor.start (ofText [] "(x)".toList)) with
      ⟨failure | result, after⟩
    · rw [run] at answers
      cases answers
    · exact ⟨result, after, rfl, bounded.1 _ _ _ _ (by decide) (Cursor.consistent_start _) run⟩
  · obtain ⟨_, _, _, _, _, clocked⟩ := bounded.2.2 .primary
    exact clocked 41 4 (Nat.le_refl _) (by rw [count]; decide)

/-- Inside two parentheses, three calls of the rule for expressions are active. -/
example :
    ((Calls.within Limits.standard 40).rule .expression
      (Probe.start (Cursor.start (ofText [] "((x))".toList)))).map
        (fun outcome => (outcome.2.peak, outcome.2.taken)) = some (3, 5) := by cbv

end Source

end SinosLang
