import Mathlib.Data.List.Basic
import Mathlib.Data.List.Nodup
import Mathlib.Logic.Function.Basic

/-!
# Intrusive doubly linked lists

The link fields of all nodes form one pair of functions, `Links`.  A node list
is a `Chain` when each of its nodes points to its neighbours in the list, so
that the list can be read from its first node by following `next`.

`append` and `unlink` are the two constant-time edits.  Both keep the edited
list a chain and every list that does not contain the touched nodes.
-/

/-- The links of some nodes to each other, in both directions. -/
structure Links (Node : Type*) where
  prev : Node → Option Node
  next : Node → Option Node

namespace Links

variable {Node : Type*}

/-- The nodes are distinct and linked to each other in the listed order. -/
structure Chain (links : Links Node) (nodes : List Node) : Prop where
  nodup : nodes.Nodup
  linked : ∀ front node back, nodes = front ++ node :: back →
    links.prev node = front.getLast? ∧ links.next node = back.head?

theorem Chain.nil (links : Links Node) : Chain links [] where
  nodup := .nil
  linked front node back split := by simp at split

/-- A chain only depends on the links of its own nodes. -/
theorem Chain.congr {links other : Links Node} {nodes : List Node}
    (chain : Chain links nodes)
    (agree : ∀ node ∈ nodes,
      other.prev node = links.prev node ∧ other.next node = links.next node) :
    Chain other nodes where
  nodup := chain.nodup
  linked front node back split := by
    obtain ⟨prevEq, nextEq⟩ := agree node (by simp [split])
    rw [prevEq, nextEq]
    exact chain.linked front node back split

/-- Follow `next` from a node, for at most `fuel` nodes. -/
def walk (links : Links Node) : Nat → Option Node → List Node
  | 0, _ => []
  | _, none => []
  | fuel + 1, some node => node :: walk links fuel (links.next node)

theorem Chain.walk_suffix {links : Links Node} {nodes : List Node}
    (chain : Chain links nodes) {front back : List Node} {fuel : Nat}
    (split : nodes = front ++ back) (enough : back.length ≤ fuel) :
    links.walk fuel back.head? = back := by
  induction back generalizing front fuel with
  | nil => cases fuel <;> rfl
  | cons node back induction =>
      cases fuel with
      | zero => simp at enough
      | succ fuel =>
          have nextEq := (chain.linked front node back split).2
          simp only [List.head?_cons, walk, nextEq, List.cons.injEq,
            true_and]
          have split' : nodes = (front ++ [node]) ++ back := by simp [split]
          exact induction split' (by simpa using enough)

theorem Chain.walk_eq {links : Links Node} {nodes : List Node}
    (chain : Chain links nodes) {fuel : Nat} (enough : nodes.length ≤ fuel) :
    links.walk fuel nodes.head? = nodes :=
  chain.walk_suffix (List.nil_append nodes).symm enough

variable [DecidableEq Node]

/-- Link a new node behind the node `tail`. -/
def append (links : Links Node) (tail : Option Node) (node : Node) :
    Links Node where
  prev := Function.update links.prev node tail
  next :=
    match tail with
    | none => Function.update links.next node none
    | some last =>
        Function.update (Function.update links.next node none) last (some node)

/-- Let the neighbours of a node point past it. -/
def unlink (links : Links Node) (node : Node) : Links Node where
  prev :=
    match links.next node with
    | none => links.prev
    | some after => Function.update links.prev after (links.prev node)
  next :=
    match links.prev node with
    | none => links.next
    | some before => Function.update links.next before (links.next node)

/-- Only the new node and the node in front of it get new links. -/
theorem append_of_ne {links : Links Node} {tail : Option Node}
    {node other : Node} (differs : other ≠ node) (notTail : tail ≠ some other) :
    (links.append tail node).prev other = links.prev other ∧
      (links.append tail node).next other = links.next other := by
  cases tail with
  | none => simp [append, Function.update_of_ne differs]
  | some last =>
      have notLast : other ≠ last := by
        rintro rfl
        exact notTail rfl
      simp [append, Function.update_of_ne differs,
        Function.update_of_ne notLast]

/-- Only the neighbours of an unlinked node get new links. -/
theorem unlink_of_ne {links : Links Node} {node other : Node}
    (notPrev : links.prev node ≠ some other)
    (notNext : links.next node ≠ some other) :
    (links.unlink node).prev other = links.prev other ∧
      (links.unlink node).next other = links.next other := by
  constructor
  · cases nextEq : links.next node with
    | none => simp [unlink, nextEq]
    | some after =>
        have differs : other ≠ after := by
          rintro rfl
          exact notNext nextEq
        simp [unlink, nextEq, Function.update_of_ne differs]
  · cases prevEq : links.prev node with
    | none => simp [unlink, prevEq]
    | some before =>
        have differs : other ≠ before := by
          rintro rfl
          exact notPrev prevEq
        simp [unlink, prevEq, Function.update_of_ne differs]

theorem Chain.append {links : Links Node} {nodes : List Node} {node : Node}
    (chain : Chain links nodes) (fresh : node ∉ nodes) :
    Chain (links.append nodes.getLast? node) (nodes ++ [node]) where
  nodup := by
    rw [List.nodup_append]
    refine ⟨chain.nodup, List.nodup_singleton node, ?_⟩
    intro left leftMember right rightMember same
    rw [List.mem_singleton] at rightMember
    exact fresh (rightMember ▸ same ▸ leftMember)
  linked front current back split := by
    rcases List.eq_nil_or_concat back with rfl | ⟨back, last, rfl⟩
    · -- the new node itself
      obtain ⟨rfl, same⟩ := List.append_inj' split rfl
      obtain rfl : node = current := by simpa using same
      refine ⟨by simp [Links.append], ?_⟩
      cases lastEq : nodes.getLast? with
      | none => simp [Links.append]
      | some last =>
          have differs : node ≠ last := by
            intro same
            exact fresh (same ▸ List.mem_of_getLast? lastEq)
          simp [Links.append, Function.update_of_ne differs]
    · -- a node that was already listed
      have split' : nodes ++ [node] = (front ++ current :: back) ++ [last] := by
        simpa using split
      obtain ⟨nodesEq, same⟩ := List.append_inj' split' rfl
      obtain rfl : node = last := by simpa using same
      obtain ⟨prevEq, nextEq⟩ := chain.linked front current back nodesEq
      have differs : current ≠ node := by
        rintro rfl
        exact fresh (by simp [nodesEq])
      refine ⟨by simp [Links.append, Function.update_of_ne differs, prevEq], ?_⟩
      rcases List.eq_nil_or_concat back with rfl | ⟨back, tail, rfl⟩
      · simp [Links.append, nodesEq]
      · have notTail : current ≠ tail := by
          have nodup := chain.nodup
          rintro rfl
          simp [nodesEq, List.nodup_append] at nodup
        have tailEq : nodes.getLast? = some tail := by
          rw [nodesEq, List.concat_eq_append, ← List.cons_append,
            ← List.append_assoc, List.getLast?_concat]
        rw [tailEq]
        simp only [Links.append, Function.update_of_ne notTail,
          Function.update_of_ne differs, nextEq]
        cases back <;> simp

section Unlink

variable {links : Links Node} {front back : List Node} {node : Node}

omit [DecidableEq Node] in
/-- The successor of an unlinked node is the new head when there is no
predecessor. -/
theorem head?_unlink (node : Node) :
    (front ++ back).head? =
      match front.getLast? with
      | none => back.head?
      | some _ => (front ++ node :: back).head? := by
  rcases List.eq_nil_or_concat front with rfl | ⟨front, last, rfl⟩
  · rfl
  · simp only [List.concat_eq_append, List.getLast?_concat]
    cases front <;> simp

omit [DecidableEq Node] in
theorem getLast?_unlink (node : Node) :
    (front ++ back).getLast? =
      match back.head? with
      | none => front.getLast?
      | some _ => (front ++ node :: back).getLast? := by
  cases back with
  | nil => simp
  | cons head rest => simp [List.getLast?_append]

omit [DecidableEq Node] in
theorem split_cases {left right : List Node} {current : Node}
    (split : front ++ back = left ++ current :: right) :
    (∃ middle, front = left ++ current :: middle ∧ right = middle ++ back) ∨
      ∃ middle, left = front ++ middle ∧ back = middle ++ current :: right := by
  rcases List.append_eq_append_iff.mp split with
    ⟨middle, leftEq, backEq⟩ | ⟨middle, frontEq, restEq⟩
  · exact .inr ⟨middle, leftEq, backEq⟩
  · cases middle with
    | nil =>
        exact .inr
          ⟨[], by simpa using frontEq.symm, by simpa using restEq.symm⟩
    | cons head middle =>
        obtain ⟨rfl, rightEq⟩ := List.cons.inj restEq
        exact .inl ⟨middle, frontEq, rightEq⟩

theorem Chain.unlink (chain : Chain links (front ++ node :: back)) :
    Chain (links.unlink node) (front ++ back) where
  nodup := by
    refine chain.nodup.sublist ?_
    exact (List.Sublist.refl front).append (List.sublist_cons_self node back)
  linked left current right split := by
    obtain ⟨nodePrev, nodeNext⟩ := chain.linked front node back rfl
    have nodup := chain.nodup
    rcases split_cases split with ⟨middle, rfl, rfl⟩ | ⟨middle, rfl, rfl⟩
    · -- `current` lies before the unlinked node
      obtain ⟨prevEq, nextEq⟩ := chain.linked left current
        (middle ++ node :: back) (by simp)
      have notAfter : ∀ after, back.head? = some after → current ≠ after := by
        rintro after afterEq rfl
        have member : current ∈ back := List.mem_of_head? afterEq
        simp [List.nodup_append, member] at nodup
      constructor
      · cases afterEq : back.head? with
        | none => simp [Links.unlink, nodeNext, afterEq, prevEq]
        | some after =>
            simp [Links.unlink, nodeNext, afterEq,
              Function.update_of_ne (notAfter after afterEq), prevEq]
      · rcases List.eq_nil_or_concat middle with rfl | ⟨middle, last, rfl⟩
        · simp [Links.unlink, nodePrev, nodeNext]
        · have notLast : current ≠ last := by
            rintro rfl
            simp [List.nodup_append] at nodup
          have lastEq : (left ++ current :: middle.concat last).getLast? =
              some last := by
            rw [List.concat_eq_append, ← List.cons_append, ← List.append_assoc,
              List.getLast?_concat]
          simp only [Links.unlink, nodePrev, lastEq,
            Function.update_of_ne notLast, nextEq]
          cases middle <;> simp
    · -- `current` lies behind the unlinked node
      obtain ⟨prevEq, nextEq⟩ := chain.linked (front ++ node :: middle) current
        right (by simp)
      have notBefore : ∀ before, front.getLast? = some before →
          current ≠ before := by
        rintro before beforeEq rfl
        have member : current ∈ front := List.mem_of_getLast? beforeEq
        exact List.disjoint_of_nodup_append nodup member (by simp)
      constructor
      · cases middle with
        | nil => simp [Links.unlink, nodePrev, nodeNext]
        | cons head middle =>
            have notHead : current ≠ head := by
              rintro rfl
              simp [List.nodup_append] at nodup
            simp only [Links.unlink, nodeNext, List.cons_append,
              List.head?_cons, Function.update_of_ne notHead, prevEq]
            simp [List.getLast?_append]
      · cases beforeEq : front.getLast? with
        | none => simp [Links.unlink, nodePrev, beforeEq, nextEq]
        | some before =>
            simp [Links.unlink, nodePrev, beforeEq,
              Function.update_of_ne (notBefore before beforeEq), nextEq]

end Unlink

end Links
