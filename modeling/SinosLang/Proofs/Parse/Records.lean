import SinosLang.Parse.Caller
import SinosLang.Proofs.Parse.Limits

/-!
# Recorded heights

What is entered under the address of a node is never less than its height. It is more where the
address belonged to another node before, whose height was entered; where no node with an entry has
gone, it is the height. An action of a parser that looks heights up is compared here with the action
that carries them along: it ends in the same way, unless it refuses a tree for an entry that is too
high.

Main statements: `follows_leaf` and `follows_build`.
-/

set_option autoImplicit false

namespace SinosLang

/-! ## Entries -/

namespace Memory

variable {memory : Memory} {address other : Address} {height : Nat}

/-- Every node with an entry is still alive. -/
def Intact (memory : Memory) : Prop :=
  ∀ entry ∈ memory.heights, entry.1 ∈ memory.alive

/-- The height that was entered last for an address is found there. -/
theorem height_enter_self : (memory.enter address height).height address = height := by
  simp [Memory.height, enter]

/-- An entry leaves what is found at other addresses. -/
theorem height_enter_of_ne (isOther : other ≠ address) :
    (memory.enter address height).height other = memory.height other := by
  simp [Memory.height, enter, List.lookup_cons, beq_eq_false_iff_ne.mpr isOther]

/-- Where there is no entry, the height counts as one. -/
theorem height_of_not_entered (noEntry : ∀ entry ∈ memory.heights, entry.1 ≠ address) :
    memory.height address = 1 := by
  have nothing : memory.heights.lookup address = none :=
    List.lookup_eq_none_iff.mpr fun entry isIn =>
      bne_iff_ne.mpr (noEntry entry isIn).symm
  rw [Memory.height, nothing]
  rfl

end Memory

/-- The entries of a memory are heights of some nodes. For them to be exact, it is kept that every
node with an entry is still alive. -/
structure Memory.Keeps (exact : Prop) (memory : Memory) : Prop where
  positive : ∀ entry ∈ memory.heights, 0 < entry.2
  intact : exact → memory.Intact

/-- What was computed for a node is at least its height, and its height if it has to be exact. -/
structure HeightCheck.Sound (exact : Prop) (check : HeightCheck) : Prop where
  le : check.node.height ≤ check.computed
  eq : exact → check.computed = check.node.height

/-- A sound check whose node was not refused. -/
def HeightCheck.Passed (limits : Limits) (exact : Prop) (check : HeightCheck) : Prop :=
  check.Sound exact ∧ limits.allows check.computed = true

/-- In the course of a call, no node goes, no entry of a node that is alive changes, and all checks
pass. -/
structure Memory.Grows (limits : Limits) (exact : Prop) (before after : Memory) : Prop where
  alive : ∀ address ∈ before.alive, address ∈ after.alive
  height_eq : ∀ address ∈ before.alive, after.height address = before.height address
  checks : ∃ passed, after.checks = passed ++ before.checks ∧
    ∀ check ∈ passed, check.Passed limits exact

namespace Memory.Grows

variable {limits : Limits} {exact : Prop} {before middle after : Memory}

/-- A memory grows into itself. -/
theorem refl (memory : Memory) : memory.Grows limits exact memory :=
  ⟨fun _ => id, fun _ _ => rfl, [], rfl, List.forall_mem_nil _⟩

/-- A memory that grows twice has grown. -/
theorem trans (first : before.Grows limits exact middle)
    (second : middle.Grows limits exact after) : before.Grows limits exact after where
  alive address isAlive := second.alive address (first.alive address isAlive)
  height_eq address isAlive := by
    rw [second.height_eq address (first.alive address isAlive), first.height_eq address isAlive]
  checks := by
    obtain ⟨early, early_eq, earlyPassed⟩ := first.checks
    obtain ⟨late, late_eq, latePassed⟩ := second.checks
    refine ⟨late ++ early, ?_, List.forall_mem_append.mpr ⟨latePassed, earlyPassed⟩⟩
    rw [late_eq, early_eq, List.append_assoc]

end Memory.Grows

/-- A node that is alive, low enough, and under whose address at least its height is found. -/
structure Placed.Recorded (limits : Limits) (exact : Prop) (memory : Memory) (placed : Placed) :
    Prop where
  alive : placed.address ∈ memory.alive
  low : limits.allows placed.node.height = true
  le : placed.node.height ≤ memory.height placed.address
  eq : exact → memory.height placed.address = placed.node.height

/-- A node with the height that it really has. -/
def Placed.measured (placed : Placed) : Measured :=
  placed.node.measured

section Memories

variable {limits : Limits} {exact : Prop} {memory before after : Memory} {placed : Placed}
  {parts : List Placed}

/-- A recorded node stays recorded in the course of a call. -/
theorem Placed.Recorded.mono (recorded : placed.Recorded limits exact before)
    (grows : before.Grows limits exact after) : placed.Recorded limits exact after := by
  have same := grows.height_eq placed.address recorded.alive
  refine ⟨grows.alive _ recorded.alive, recorded.low, ?_, ?_⟩
  · rw [same]
    exact recorded.le
  · rw [same]
    exact recorded.eq

/-- At every address a positive height is found. -/
theorem Memory.Keeps.height_pos (keeps : memory.Keeps exact) (address : Address) :
    0 < memory.height address := by
  rw [Memory.height]
  cases found : memory.heights.lookup address with
  | none => exact Nat.one_pos
  | some height =>
    obtain ⟨early, late, split, _⟩ := List.lookup_eq_some_iff.mp found
    exact keeps.positive (address, height) (by rw [split]; simp)

/-- What is computed from the entries of the children is at least the height of a node, and its
height if the entries are exact. -/
theorem computed_sound {node : Node} (children_eq : node.children = parts.map Placed.node)
    (recorded : ∀ part ∈ parts, part.Recorded limits exact memory) :
    (HeightCheck.mk node
      ((parts.map fun part => memory.height part.address).foldr max 0 + 1)).Sound exact := by
  have height_eq : node.height = ((parts.map fun part => part.node.height).foldr max 0) + 1 := by
    rw [Node.height_eq, children_eq, List.map_map]
    rfl
  constructor
  · rw [height_eq]
    refine Nat.succ_le_succ ?_
    clear children_eq height_eq
    induction parts with
    | nil => exact le_rfl
    | cons part parts ih =>
      obtain ⟨here, later⟩ := List.forall_mem_cons.mp recorded
      exact max_le_max here.le (ih later)
  · intro isExact
    rw [height_eq]
    have same : (parts.map fun part => memory.height part.address) =
        parts.map fun part => part.node.height :=
      List.map_congr_left fun part isPart => (recorded part isPart).eq isExact
    exact congrArg (fun heights => List.foldr max 0 heights + 1) same

end Memories

/-! ## Two actions side by side -/

/-- How an action that looks heights up ends beside one that carries them along: both answer, or fail
in the same way, or the first one refuses a node after its check. Then the other one does so as well,
unless the node is not too tall. Whatever the first one answers with is recorded. -/
inductive Parser.Agrees (limits : Limits) (exact : Prop) {α β : Type} (carried : α → β)
    (recorded : Memory → α → Prop) (before : Memory) :
    Except Failure α × Parser → Except Failure β × Cursor → Prop
  | ok {value : α} {after : Parser} :
    after.memory.Keeps exact → before.Grows limits exact after.memory →
    recorded after.memory value →
    Agrees limits exact carried recorded before (.ok value, after)
      (.ok (carried value), after.cursor)
  | error {failure : Failure} {after : Parser} :
    after.memory.Keeps exact → before.Grows limits exact after.memory →
    Agrees limits exact carried recorded before (.error failure, after)
      (.error failure, after.cursor)
  | refused {check : HeightCheck} {middle : Memory} {address : Address} {cursor : Cursor}
      {outcome : Except Failure β × Cursor} :
    middle.Keeps exact → before.Grows limits exact middle → check.Sound exact →
    limits.allows check.computed = false →
    (limits.allows check.node.height = false →
      outcome = (.error (.diagnostic ⟨.tooDeep, check.node.span⟩), cursor)) →
    Agrees limits exact carried recorded before
      (.error (.diagnostic ⟨.tooDeep, check.node.span⟩),
        ⟨cursor, (middle.occupy address).keepCheck check⟩)
      outcome

/-- An action that looks heights up goes along with one that carries them, from any memory that the
given one has grown to in the course of a call. -/
def Parser.Follows (limits : Limits) (exact : Prop) (start : Memory) {α β : Type}
    (carried : α → β) (recorded : Memory → α → Prop) (action : Parser.Action α)
    (action' : Parse β) : Prop :=
  ∀ parser : Parser, parser.memory.Keeps exact → start.Grows limits exact parser.memory →
    Agrees limits exact carried recorded parser.memory (action parser) (action' parser.cursor)

/-- An action for a tree goes along with one that carries the height of the tree along. -/
abbrev Parser.TracksFrom (limits : Limits) (exact : Prop) (start : Memory)
    (action : Parser.Action Placed) (action' : Parse Measured) : Prop :=
  Follows limits exact start Placed.measured
    (fun memory tree => tree.Recorded limits exact memory) action action'

namespace Parser

variable {limits : Limits} {exact : Prop} {start : Memory} {α α' β β' : Type}
  {carried : α → α'} {carried' : β → β'} {recorded : Memory → α → Prop}
  {recorded' : Memory → β → Prop}

/-- Runs that agree from a memory on agree from the one that it has grown from. -/
theorem Agrees.of_grows {before middle : Memory} {outcome : Except Failure α × Parser}
    {outcome' : Except Failure α' × Cursor} (grows : before.Grows limits exact middle)
    (agrees : Agrees limits exact carried recorded middle outcome outcome') :
    Agrees limits exact carried recorded before outcome outcome' := by
  cases agrees with
  | ok keeps further isRecorded => exact .ok keeps (grows.trans further) isRecorded
  | error keeps further => exact .error keeps (grows.trans further)
  | refused keeps further sound notAllowed same =>
    exact .refused keeps (grows.trans further) sound notAllowed same

/-- If heights have to be exact, both end in the same way. -/
theorem Agrees.eq_of_exact {before : Memory} {outcome : Except Failure α × Parser}
    {outcome' : Except Failure α' × Cursor} (isExact : exact)
    (agrees : Agrees limits exact carried recorded before outcome outcome') :
    (outcome.1.map carried, outcome.2.cursor) = outcome' := by
  cases agrees with
  | ok | error => rfl
  | refused _ _ sound notAllowed same =>
    rw [sound.eq isExact] at notAllowed
    exact (same notAllowed).symm

/-- An answer goes along with what it carries, if it is recorded in every later memory. -/
theorem follows_pure {value : α}
    (isRecorded : ∀ memory, start.Grows limits exact memory → recorded memory value) :
    Follows limits exact start carried recorded (pure value) (pure (carried value)) :=
  fun _ keeps grows => .ok keeps (.refl _) (isRecorded _ grows)

/-- A failure on the cursor is one on both sides. -/
theorem follows_fail (failure : Failure) :
    Follows limits exact start carried recorded (onCursor (Parse.fail failure))
      (Parse.fail failure) :=
  fun _ keeps _ => .error keeps (.refl _)

/-- What is done on the cursor alone is done on both sides. -/
theorem follows_onCursor (action : Parse α) :
    Follows limits exact start id (fun _ _ => True) (onCursor action) action := by
  intro parser keeps _
  unfold onCursor
  rcases action parser.cursor with ⟨failure | value, after⟩
  · exact .error keeps (.refl _)
  · exact .ok keeps (.refl _) trivial

/-- One action after another goes along if both do, the second one from the memory that the first
one has left. -/
theorem Follows.bind {action : Action α} {action' : Parse α'} {next : α → Action β}
    {next' : α' → Parse β'} (first : Follows limits exact start carried recorded action action')
    (rest : ∀ memory value, start.Grows limits exact memory → recorded memory value →
      Follows limits exact memory carried' recorded' (next value) (next' (carried value))) :
    Follows limits exact start carried' recorded' (action >>= next) (action' >>= next') := by
  intro parser keeps grows
  have agrees := first parser keeps grows
  generalize run : action parser = outcome at agrees
  generalize run' : action' parser.cursor = outcome' at agrees
  cases agrees with
  | @ok value after keeps' grows' isRecorded =>
    rw [bind_apply_of_ok run, Parse.bind_apply_of_ok run']
    exact .of_grows grows'
      (rest after.memory value (grows.trans grows') isRecorded after keeps' (.refl _))
  | error keeps' grows' =>
    rw [bind_apply_of_error run, Parse.bind_apply_of_error run']
    exact .error keeps' grows'
  | refused keeps' grows' sound notAllowed same =>
    rw [bind_apply_of_error run]
    exact .refused keeps' grows' sound notAllowed fun tooTall =>
      Parse.bind_apply_of_error (run'.trans (same tooTall))

end Parser

/-! ## New nodes -/

section NewNodes

variable {limits : Limits} {exact : Prop} {memory start : Memory} (allocator : Allocator)

namespace Memory

/-- Occupying an address keeps the entries. -/
theorem Keeps.occupy (keeps : memory.Keeps exact) (address : Address) :
    (memory.occupy address).Keeps exact where
  positive := keeps.positive
  intact isExact entry isIn := List.mem_cons_of_mem _ (keeps.intact isExact entry isIn)

/-- Noting a check keeps the entries. -/
theorem Keeps.keepCheck (keeps : memory.Keeps exact) (check : HeightCheck) :
    (memory.keepCheck check).Keeps exact :=
  ⟨keeps.positive, keeps.intact⟩

/-- Entering a positive height for a node that is alive keeps the entries. -/
theorem Keeps.enter {address : Address} {height : Nat} (keeps : memory.Keeps exact)
    (isAlive : address ∈ memory.alive) (positive : 0 < height) :
    (memory.enter address height).Keeps exact where
  positive := List.forall_mem_cons.mpr ⟨positive, keeps.positive⟩
  intact isExact := List.forall_mem_cons.mpr ⟨isAlive, keeps.intact isExact⟩

/-- A new leaf changes nothing for the others. -/
theorem Grows.occupy (memory : Memory) (address : Address) :
    memory.Grows limits exact (memory.occupy address) :=
  ⟨fun _ => List.mem_cons_of_mem _, fun _ _ => rfl, [], rfl, List.forall_mem_nil _⟩

/-- What is entered for a new node is at none of the addresses of the others. -/
theorem Grows.enter (memory : Memory) {check : HeightCheck} (passed : check.Passed limits exact)
    (height : Nat) :
    memory.Grows limits exact (((memory.occupy (allocator.choose memory)).keepCheck check).enter
      (allocator.choose memory) height) where
  alive _ := List.mem_cons_of_mem _
  height_eq _ isAlive :=
    height_enter_of_ne fun same => allocator.choose_dead memory (same ▸ isAlive)
  checks := ⟨[check], rfl, List.forall_mem_singleton.mpr passed⟩

/-- There is no entry under the address of a new node, if all nodes with one are alive. -/
theorem Keeps.height_choose (keeps : memory.Keeps exact) (isExact : exact) :
    memory.height (allocator.choose memory) = 1 :=
  height_of_not_entered fun entry isIn same =>
    allocator.choose_dead memory (same ▸ keeps.intact isExact entry isIn)

end Memory

namespace Parser

/-- A new leaf is recorded: nothing is entered under its address, or what was left there. -/
theorem follows_leaf {node : Node} (isLeaf : node.height = 1) (leaves : limits.allows 1 = true) :
    TracksFrom limits exact start (leaf allocator node) (pure (Parse.leaf node)) := by
  intro parser keeps _
  have measured_eq : Parse.leaf node = node.measured := by rw [Node.measured, isLeaf, Parse.leaf]
  rw [measured_eq]
  refine .ok (keeps.occupy _) (.occupy _ _) ⟨List.mem_cons_self, ?_, ?_, ?_⟩
  · rwa [isLeaf]
  · rw [isLeaf]
    exact keeps.height_pos _
  · intro isExact
    rw [isLeaf]
    exact keeps.height_choose allocator isExact

/-- A node is built on both sides, or refused on both, or refused for an entry that is too high. -/
theorem follows_build {node : Node} {parts : List Placed}
    (children_eq : node.children = parts.map Placed.node)
    (recorded : ∀ part ∈ parts, part.Recorded limits exact start) :
    TracksFrom limits exact start (build allocator limits node parts)
      (Parse.build limits node (parts.map Placed.measured)) := by
  intro parser keeps grows
  have sound := computed_sound children_eq fun part isPart => (recorded part isPart).mono grows
  have height_eq : ((parts.map Placed.measured).map Measured.height).foldr max 0 + 1 =
      node.height := by
    rw [Node.height_eq, children_eq, List.map_map, List.map_map]
    rfl
  unfold build Parse.build
  dsimp only
  rw [height_eq]
  generalize computed_eq :
    (parts.map fun part => parser.memory.height part.address).foldr max 0 + 1 = computed at sound ⊢
  have positive : 0 < computed := computed_eq ▸ Nat.succ_pos _
  by_cases allowed : limits.allows computed = true
  · have low : limits.allows node.height = true := Limits.allows_of_le allowed sound.le
    have keeps' := (keeps.occupy (allocator.choose parser.memory)).keepCheck ⟨node, computed⟩
    rw [if_pos allowed, if_pos low]
    refine .ok (keeps'.enter List.mem_cons_self positive) (.enter allocator _ ⟨sound, allowed⟩ _)
      ⟨List.mem_cons_self, low, ?_, fun isExact => ?_⟩
    · exact sound.le.trans_eq Memory.height_enter_self.symm
    · exact Memory.height_enter_self.trans (sound.eq isExact)
  · rw [if_neg allowed]
    refine .refused keeps (.refl _) sound (Bool.eq_false_iff.mpr allowed) fun tooTall => ?_
    rw [if_neg (Bool.eq_false_iff.mp tooTall)]
    rfl

end Parser

end NewNodes

end SinosLang
