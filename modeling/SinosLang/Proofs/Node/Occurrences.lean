import SinosLang.Proofs.Node.Levels

/-!
# Where the nodes of a tree stand

One node may stand at several places of a tree. A place has an address: the numbers of the children to
take on the way down from the root. The places of a tree are listed in pre-order, so a node comes
before what is below it and behind everything to the left of it: this is the lexicographic order of
the addresses. The depth of a place is the length of its address.

Main statements: `mem_occurrences_iff`, `pairwise_occurrences` and `levels_eq_occurrences`.
-/

set_option autoImplicit false

namespace SinosLang.Node

/-- The node at an address: each number takes a child, counted from zero. -/
def descend? (node : Node) : List Nat → Option Node
  | [] => some node
  | number :: address => node.children[number]?.bind fun child => child.descend? address

/-- The addresses of a tree in pre-order, each with the node that stands there. -/
def occurrences (node : Node) : List (List Nat × Node) :=
  ([], node) :: node.children.attach.zipIdx.flatMap fun entry =>
    (occurrences entry.1.1).map (Prod.map (entry.2 :: ·) id)
termination_by node.count
decreasing_by exact count_lt_of_mem_children entry.1.2

variable {node inner child : Node} {address : List Nat} {number : Nat}

/-- The root stands at the empty address, and what stands below a child has its number in front. -/
theorem occurrences_eq (node : Node) :
    node.occurrences = ([], node) :: node.children.zipIdx.flatMap fun entry =>
      entry.1.occurrences.map (Prod.map (entry.2 :: ·) id) := by
  have unattached : node.children.zipIdx =
      node.children.attach.zipIdx.map fun entry => (entry.1.1, entry.2) := by
    conv_lhs => rw [← List.attach_map_subtype_val node.children, List.zipIdx_map]
    rfl
  rw [occurrences, unattached, List.flatMap_map]

/-- An address leads where its second part leads from where its first part leads. -/
theorem descend?_append (node : Node) (address below : List Nat) :
    node.descend? (address ++ below) = (node.descend? address).bind (descend? · below) := by
  induction address generalizing node with
  | nil => rfl
  | cons number address ih =>
    rw [List.cons_append, descend?, descend?, Option.bind_assoc]
    exact Option.bind_congr fun child _ => ih child

/-- Below a node stands its child with a number, at the address with the number behind. -/
theorem descend?_child (stands : node.descend? address = some inner)
    (isChild : inner.children[number]? = some child) :
    node.descend? (address ++ [number]) = some child := by
  rw [descend?_append, stands, Option.bind_some, descend?, isChild]
  rfl

/-- A node is listed with an address exactly if it stands there. -/
theorem mem_occurrences_iff :
    (address, inner) ∈ node.occurrences ↔ node.descend? address = some inner := by
  induction node using induction_on_children generalizing address with
  | step node ih =>
    rw [occurrences_eq, List.mem_cons, List.mem_flatMap]
    cases address with
    | nil => simp [descend?, eq_comm]
    | cons number address =>
      rw [descend?, Option.bind_eq_some_iff]
      constructor
      · rintro (isRoot | ⟨⟨child, _⟩, isChild, below⟩)
        · cases isRoot
        · obtain ⟨⟨address, inner⟩, isBelow, ⟨⟩⟩ := List.mem_map.mp below
          have found := List.mem_zipIdx_iff_getElem?.mp isChild
          exact ⟨child, found, (ih child (List.mem_of_getElem? found)).mp isBelow⟩
      · rintro ⟨child, found, stands⟩
        refine .inr ⟨(child, number), List.mem_zipIdx_iff_getElem?.mpr found, ?_⟩
        exact List.mem_map_of_mem ((ih child (List.mem_of_getElem? found)).mpr stands)

/-- Children are numbered from left to right. -/
theorem pairwise_zipIdx (nodes : List Node) :
    nodes.zipIdx.Pairwise fun first second => first.2 < second.2 := by
  rw [← List.pairwise_map (f := Prod.snd), List.zipIdx_map_snd]
  exact List.pairwise_lt_range'

/-- The addresses stand in lexicographic order, so each of them is listed once. -/
theorem pairwise_occurrences (node : Node) : (node.occurrences.map Prod.fst).Pairwise (· < ·) := by
  induction node using induction_on_children with
  | step node ih =>
    have below (entry : Node × Nat) :
        (entry.1.occurrences.map (Prod.map (entry.2 :: ·) id)).map Prod.fst =
          (entry.1.occurrences.map Prod.fst).map (entry.2 :: ·) := by
      rw [List.map_map, List.map_map]
      rfl
    rw [occurrences_eq, List.map_cons, List.map_flatMap, List.pairwise_cons, List.pairwise_flatMap]
    refine ⟨fun address isBelow => ?_, fun entry isChild => ?_, (pairwise_zipIdx _).imp ?_⟩
    · obtain ⟨entry, _, isBelow⟩ := List.mem_flatMap.mp isBelow
      rw [below] at isBelow
      obtain ⟨address, _, rfl⟩ := List.mem_map.mp isBelow
      exact List.nil_lt_cons _ _
    · have found := List.mem_zipIdx_iff_getElem?.mp isChild
      rw [below, List.pairwise_map]
      exact (ih entry.1 (List.mem_of_getElem? found)).imp List.cons_lt_cons_self.mpr
    · intro first second toTheLeft address isBelow address' isBelow'
      rw [below] at isBelow isBelow'
      obtain ⟨address, _, rfl⟩ := List.mem_map.mp isBelow
      obtain ⟨address', _, rfl⟩ := List.mem_map.mp isBelow'
      exact List.Lex.rel toTheLeft

/-- The outline gives each place with its depth. -/
theorem levels_eq_occurrences (depth : Nat) (node : Node) :
    node.levels depth = node.occurrences.map fun place => (depth + place.1.length, place.2) := by
  induction node using induction_on_children generalizing depth with
  | step node ih =>
    have numbered : node.children.flatMap (levels (depth + 1)) =
        node.children.zipIdx.flatMap fun entry => levels (depth + 1) entry.1 := by
      conv_lhs => rw [← List.zipIdx_map_fst 0 node.children, List.flatMap_map]
    rw [levels_eq, occurrences_eq, List.map_cons, List.map_flatMap, numbered]
    congr 1
    refine List.flatMap_congr fun entry isChild => ?_
    have found := List.mem_zipIdx_iff_getElem?.mp isChild
    rw [ih entry.1 (List.mem_of_getElem? found), List.map_map]
    refine List.map_congr_left fun place _ => ?_
    simp [Nat.add_assoc, Nat.add_comm 1]

end SinosLang.Node
