import SinosLang.Parse.Cursor

/-!
# The memory of a parser

Every node has an address, and no two nodes that are alive have the same one. The address of a node
that is gone may be given to a new node. A parser enters the heights of the nodes that it has built
under their addresses, and takes no entry out again. So what is entered under the address of a leaf,
which itself is never entered, is the height of a node that was there before.
-/

set_option autoImplicit false

namespace SinosLang

/-- The address of a node. -/
abbrev Address : Type :=
  Nat

/-- A node with its address and the addresses of the nodes below it. -/
structure Placed where
  node : Node
  address : Address
  below : List Address

/-- The addresses of a node and of the nodes below it. -/
def Placed.addresses (placed : Placed) : List Address :=
  placed.address :: placed.below

/-- A check of the height of a node, with the height that was computed from the entries of its
children. -/
structure HeightCheck where
  node : Node
  computed : Nat

/-- The memory of a parser: the addresses of the nodes that are alive, the number of nodes that there
have been, and the heights that were entered, the latest first. The checks of heights are kept as
well, the latest first. -/
structure Memory where
  alive : List Address
  count : Nat
  heights : List (Address × Nat)
  checks : List HeightCheck

namespace Memory

/-- The memory in which there is nothing yet. -/
def empty : Memory where
  alive := []
  count := 0
  heights := []
  checks := []

/-- The height that is entered under an address, one if there is no entry. -/
def height (memory : Memory) (address : Address) : Nat :=
  (memory.heights.lookup address).getD 1

/-- The memory in which there is a new node at an address. -/
def occupy (memory : Memory) (address : Address) : Memory :=
  { memory with alive := address :: memory.alive, count := memory.count + 1 }

/-- The memory in which only the nodes at the given addresses are still alive. -/
def retain (memory : Memory) (kept : List Address) : Memory :=
  { memory with alive := memory.alive.filter kept.contains }

/-- Enters the height of the node at an address. -/
def enter (memory : Memory) (address : Address) (height : Nat) : Memory :=
  { memory with heights := (address, height) :: memory.heights }

/-- Keeps a check. -/
def keepCheck (memory : Memory) (check : HeightCheck) : Memory :=
  { memory with checks := check :: memory.checks }

/-- The least address above all at which a node is alive. -/
def above (memory : Memory) : Address :=
  memory.alive.foldr (fun address least => max (address + 1) least) 0

/-- An address at which a node is alive is below the least one above all of them. -/
theorem lt_above {memory : Memory} {address : Address} (isAlive : address ∈ memory.alive) :
    address < memory.above := by
  unfold above
  generalize memory.alive = alive at isAlive ⊢
  induction alive with
  | nil => cases isAlive
  | cons other alive ih =>
    rcases List.mem_cons.mp isAlive with rfl | isAlive
    · exact Nat.lt_of_lt_of_le (Nat.lt_succ_self _) (Nat.le_max_left _ _)
    · exact Nat.lt_of_lt_of_le (ih isAlive) (Nat.le_max_right _ _)

/-- What is alive behind a release was alive before it and is kept. -/
@[simp]
theorem mem_retain_alive {memory : Memory} {kept : List Address} {address : Address} :
    address ∈ (memory.retain kept).alive ↔ address ∈ memory.alive ∧ address ∈ kept := by
  simp [retain]

end Memory

/-- A way to choose the address of a new node: any at which no node is alive. It may depend on how
many nodes there have been, so that no sequence of such addresses is excluded. -/
structure Allocator where
  choose : Memory → Address
  choose_dead : ∀ memory, choose memory ∉ memory.alive

/-- Gives out the least address above all at which a node is alive. -/
def Allocator.above : Allocator where
  choose memory := memory.above
  choose_dead memory isAlive := Nat.lt_irrefl _ (memory.lt_above isAlive)

end SinosLang
