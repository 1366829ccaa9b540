import Mathlib.Data.List.Nodup
import Mathlib.Data.List.Perm.Subperm

/-! Singly linked lists in a heap of nodes. An address is the number of an
allocation, so it is never handed out twice; a node that was freed stays a hole. -/
namespace CMemory

universe u

/-- A node: what it carries, and the pointer to the next one. -/
structure Node (α : Type u) where
  value : α
  next : Option Nat
deriving DecidableEq

/-- All nodes ever allocated, `none` for those that were freed. -/
abbrev NodeHeap (α : Type u) := List (Option (Node α))

namespace NodeHeap

variable {α : Type u}

/-- Read a node. No result for an address that is not allocated. -/
def load (heap : NodeHeap α) (address : Nat) : Option (Node α) :=
  (heap[address]?).join

/-- Allocate and fill a node: its address, and the heap with it. -/
def alloc (heap : NodeHeap α) (node : Node α) : Nat × NodeHeap α :=
  (heap.length, heap ++ [some node])

/-- Overwrite a node. Only allocated addresses can be written. -/
def store (heap : NodeHeap α) (address : Nat) (node : Node α) : Option (NodeHeap α) :=
  (heap.load address).map fun _ => heap.set address (some node)

/-- Free a node. Only an allocated address can be freed. -/
def free (heap : NodeHeap α) (address : Nat) : Option (NodeHeap α) :=
  (heap.load address).map fun _ => heap.set address none

/-- Change a node in place. -/
def modify (heap : NodeHeap α) (address : Nat) (f : Node α → Node α) : Option (NodeHeap α) :=
  (heap.load address).map fun node => heap.set address (some (f node))

variable {heap heap' : NodeHeap α} {address other : Nat} {node : Node α}

theorem lt_length_of_load (h : heap.load address = some node) : address < heap.length := by
  by_contra hOutside
  rw [load, List.getElem?_eq_none (by omega)] at h
  cases h

theorem load_alloc_of_load (h : heap.load address = some node) (fresh : Node α) :
    (heap.alloc fresh).2.load address = some node := by
  rw [load, alloc, List.getElem?_append_left (lt_length_of_load h)]
  exact h

theorem load_alloc_self (fresh : Node α) :
    (heap.alloc fresh).2.load (heap.alloc fresh).1 = some fresh := by
  simp [load, alloc]

theorem load_set (cell : Option (Node α)) :
    NodeHeap.load (heap.set address cell) other =
      if other = address ∧ address < heap.length then cell else heap.load other := by
  by_cases hSame : other = address
  · subst hSame
    by_cases hInside : other < heap.length
    · simp [load, hInside]
    · simp [load, hInside]
  · rw [load, List.getElem?_set_ne (Ne.symm hSame), if_neg (by simp [hSame])]
    rfl

theorem load_set_self (h : heap.load address = some node) (node' : Node α) :
    NodeHeap.load (heap.set address (some node')) address = some node' := by
  rw [load_set, if_pos ⟨rfl, lt_length_of_load h⟩]

theorem store_eq (h : heap.load address = some node) (node' : Node α) :
    heap.store address node' = some (heap.set address (some node')) := by
  rw [store, h]
  rfl

theorem free_eq (h : heap.load address = some node) :
    heap.free address = some (heap.set address none) := by
  rw [free, h]
  rfl

theorem modify_eq (h : heap.load address = some node) (f : Node α → Node α) :
    heap.modify address f = some (heap.set address (some (f node))) := by
  rw [modify, h]
  rfl

/-- The nodes that are there are not touched by an allocation. -/
theorem load_alloc_of_lt (h : address < heap.length) (fresh : Node α) :
    (heap.alloc fresh).2.load address = heap.load address := by
  rw [load, alloc, List.getElem?_append_left h]
  rfl

/-- An allocation adds one node. -/
theorem isSome_load_alloc {fresh : Node α} (h : ((heap.alloc fresh).2.load address).isSome) :
    address = heap.length ∨ (heap.load address).isSome := by
  by_cases hInside : address < heap.length
  · rw [load_alloc_of_lt hInside] at h
    exact Or.inr h
  · left
    obtain ⟨node, hLoad⟩ := Option.isSome_iff_exists.mp h
    have hBound := lt_length_of_load hLoad
    simp only [alloc, List.length_append, List.length_singleton] at hBound
    omega

/-- A node that is changed as soon as it was allocated. -/
theorem modify_alloc (f : Node α → Node α) :
    (heap.alloc node).2.modify (heap.alloc node).1 f = some (heap.alloc (f node)).2 := by
  rw [modify_eq (load_alloc_self node), alloc, alloc]
  simp

/-- The first node of a list with `p`. No result where a pointer leads to no node. -/
def find (heap : NodeHeap α) (p : α → Bool) : Nat → Option Nat → Option (Option Nat)
  | _, none => some none
  | 0, some _ => none
  | fuel + 1, some address =>
      (heap.load address).bind fun node =>
        if p node.value then some (some address) else find heap p fuel node.next

/-- Nodes are freed one after the other. -/
def clear (heap : NodeHeap α) (addresses : List Nat) : NodeHeap α :=
  addresses.foldl (fun heap address => heap.set address none) heap

@[simp] theorem clear_nil : heap.clear [] = heap := rfl

@[simp] theorem clear_cons (addresses : List Nat) :
    heap.clear (address :: addresses) = clear (heap.set address none) addresses := rfl

theorem clear_append (first second : List Nat) :
    heap.clear (first ++ second) = (heap.clear first).clear second := List.foldl_append

@[simp] theorem length_clear (addresses : List Nat) :
    (heap.clear addresses).length = heap.length := by
  induction addresses generalizing heap with
  | nil => rfl
  | cons address addresses ih =>
      rw [clear_cons, ih]
      exact List.length_set

theorem load_clear (addresses : List Nat) :
    (heap.clear addresses).load other = if other ∈ addresses then none else heap.load other := by
  induction addresses generalizing heap with
  | nil => simp
  | cons address addresses ih =>
      rw [clear_cons, ih, load_set]
      by_cases hRest : other ∈ addresses
      · simp [hRest]
      · by_cases hSame : other = address
        · subst hSame
          by_cases hInside : other < heap.length
          · simp [hInside]
          · simp [hInside, load]
        · simp [hRest, hSame]

/-- The nodes that are there beside those of `start` have these addresses. -/
structure Allocated (start heap : NodeHeap α) (addresses : List Nat) : Prop where
  grown : start.length ≤ heap.length
  kept : ∀ address < start.length, heap.load address = start.load address
  fresh : ∀ address ∈ addresses, start.length ≤ address
  covered : ∀ address, start.length ≤ address → (heap.load address).isSome →
    address ∈ addresses

theorem load_of_length_le (h : heap.length ≤ address) : heap.load address = none := by
  rw [load, List.getElem?_eq_none h]
  rfl

theorem Allocated.refl (start : NodeHeap α) : Allocated start start [] where
  grown := Nat.le_refl _
  kept _ _ := rfl
  fresh := List.forall_mem_nil _
  covered address hBehind hSome := by
    rw [load_of_length_le hBehind] at hSome
    cases hSome

/-- Once they are freed, the nodes are those of `start` again. -/
theorem Allocated.load_clear {start : NodeHeap α} {addresses : List Nat}
    (h : Allocated start heap addresses) (address : Nat) :
    (heap.clear addresses).load address = start.load address := by
  rw [NodeHeap.load_clear]
  by_cases hInside : address < start.length
  · rw [if_neg fun hMem => Nat.not_le_of_lt hInside (h.fresh address hMem), h.kept address hInside]
  · rw [load_of_length_le (Nat.le_of_not_lt hInside)]
    split
    · rfl
    · rename_i hNot
      rw [← Option.not_isSome_iff_eq_none]
      exact fun hSome => hNot (h.covered address (Nat.le_of_not_lt hInside) hSome)

end NodeHeap

variable {α : Type u}

/-- From the pointer on, the list consists of these nodes and then ends. -/
inductive Chain (heap : NodeHeap α) : Option Nat → List (Nat × α) → Prop where
  | null : Chain heap none []
  | node {address : Nat} {value : α} {next : Option Nat} {rest : List (Nat × α)}
      (here : heap.load address = some { value := value, next := next })
      (behind : Chain heap next rest) : Chain heap (some address) ((address, value) :: rest)

namespace Chain

variable {heap heap' : NodeHeap α} {pointer : Option Nat} {nodes : List (Nat × α)}

theorem unique {other : List (Nat × α)} (h : Chain heap pointer nodes)
    (h' : Chain heap pointer other) : nodes = other := by
  induction h generalizing other with
  | null =>
      cases h' with
      | null => rfl
  | node here behind ih =>
      cases h' with
      | node here' behind' =>
          rw [here] at here'
          cases here'
          rw [ih behind']

/-- The pointer in front of a node of the list starts the list from that node on. -/
theorem of_mem {entry : Nat × α} (h : Chain heap pointer nodes) (hMem : entry ∈ nodes) :
    ∃ rest, Chain heap (some entry.1) (entry :: rest) ∧ rest.length < nodes.length := by
  induction h with
  | null => cases hMem
  | node here behind ih =>
      rcases List.mem_cons.mp hMem with rfl | hRest
      · exact ⟨_, node here behind, Nat.lt_succ_self _⟩
      · obtain ⟨rest, hChain, hLength⟩ := ih hRest
        exact ⟨rest, hChain, Nat.lt_succ_of_lt hLength⟩

theorem address_notMem {address : Nat} {value : α} {rest : List (Nat × α)}
    (h : Chain heap (some address) ((address, value) :: rest)) :
    address ∉ rest.map Prod.fst := by
  intro hMem
  obtain ⟨entry, hEntry, hAddress⟩ := List.mem_map.mp hMem
  obtain ⟨address', value'⟩ := entry
  obtain rfl : address' = address := hAddress
  cases h with
  | node here behind =>
      obtain ⟨rest', hChain, hLength⟩ := behind.of_mem hEntry
      have hSame := (node here behind).unique hChain
      rw [(List.cons.inj hSame).2] at hLength
      exact Nat.lt_irrefl _ hLength

/-- A list that ends goes through no address twice. -/
theorem nodup (h : Chain heap pointer nodes) : (nodes.map Prod.fst).Nodup := by
  induction h with
  | null => exact List.nodup_nil
  | node here behind ih => exact List.nodup_cons.mpr ⟨(node here behind).address_notMem, ih⟩

/-- Only the nodes of the list matter to it. -/
theorem frame (h : Chain heap pointer nodes)
    (hSame : ∀ entry ∈ nodes, ∀ node, heap.load entry.1 = some node →
      heap'.load entry.1 = some node) : Chain heap' pointer nodes := by
  induction h with
  | null => exact null
  | node here behind ih =>
      apply node (hSame _ (List.mem_cons_self ..) _ here)
      exact ih fun entry hEntry => hSame entry (List.mem_cons_of_mem _ hEntry)

/-- A new node in front of the list. -/
theorem push (h : Chain heap pointer nodes) (value : α) :
    Chain (heap.alloc { value := value, next := pointer }).2 (some heap.length)
      ((heap.length, value) :: nodes) := by
  apply node (NodeHeap.load_alloc_self _)
  exact h.frame fun entry _ node hLoad => NodeHeap.load_alloc_of_load hLoad _

/-- A write elsewhere does not concern the list. -/
theorem set_of_notMem (h : Chain heap pointer nodes) {address : Nat}
    (hOther : address ∉ nodes.map Prod.fst) (cell : Option (Node α)) :
    Chain (heap.set address cell) pointer nodes := by
  apply h.frame
  intro entry hEntry node hLoad
  rw [NodeHeap.load_set, if_neg]
  · exact hLoad
  · intro hSame
    exact hOther (hSame.1 ▸ List.mem_map_of_mem hEntry)

/-- A new value in one node is a new value in one place of the list. -/
theorem set_value (h : Chain heap pointer nodes) {address : Nat} {old : α} {next : Option Nat}
    (hLoad : heap.load address = some { value := old, next := next }) (value : α) :
    Chain (heap.set address (some { value := value, next := next })) pointer
      (nodes.map fun entry => if entry.1 = address then (address, value) else entry) := by
  have hInside := NodeHeap.lt_length_of_load hLoad
  induction h with
  | null => exact null
  | @node address' value' next' rest here behind ih =>
      rw [List.map_cons]
      by_cases hSame : address' = address
      · subst hSame
        have hNext : next' = next := by
          rw [hLoad] at here
          cases here
          rfl
        subst hNext
        rw [if_pos rfl]
        apply node
        · rw [NodeHeap.load_set, if_pos ⟨rfl, hInside⟩]
        · exact ih
      · rw [if_neg hSame]
        apply node
        · rw [NodeHeap.load_set, if_neg fun hBoth => hSame hBoth.1]
          exact here
        · exact ih

/-- The node behind the first one is freed and taken out of the list. -/
theorem unlink {first second : Nat} {value value' : α} {next : Option Nat}
    {rest : List (Nat × α)}
    (hFirst : heap.load first = some { value := value, next := some second })
    (hSecond : heap.load second = some { value := value', next := next })
    (h : Chain heap (some first) ((first, value) :: (second, value') :: rest)) :
    Chain (List.set (heap.set second none) first (some { value := value, next := next }))
      (some first) ((first, value) :: rest) := by
  have hNodup := h.nodup
  rw [List.map_cons, List.map_cons, List.nodup_cons, List.nodup_cons] at hNodup
  have hRest : Chain heap next rest := by
    cases h with
    | node here behind =>
        rw [hFirst] at here
        cases here
        cases behind with
        | node here' behind' =>
            rw [hSecond] at here'
            cases here'
            exact behind'
  have hFirstNotMem : first ∉ rest.map Prod.fst := fun hMem =>
    hNodup.1 (List.mem_cons_of_mem _ hMem)
  apply node
  · rw [NodeHeap.load_set, List.length_set, if_pos ⟨rfl, NodeHeap.lt_length_of_load hFirst⟩]
  · exact (hRest.set_of_notMem hNodup.2.1 none).set_of_notMem hFirstNotMem _

theorem pointer_eq_none_iff (h : Chain heap pointer nodes) : pointer = none ↔ nodes = [] := by
  cases h with
  | null => exact ⟨fun _ => rfl, fun _ => rfl⟩
  | node here behind => exact ⟨fun hNone => (by cases hNone), fun hNil => (by cases hNil)⟩

theorem lt_length (h : Chain heap pointer nodes) {address : Nat}
    (hMem : address ∈ nodes.map Prod.fst) : address < heap.length := by
  obtain ⟨⟨address', value⟩, hEntry, rfl⟩ := List.mem_map.mp hMem
  obtain ⟨rest, hChain, -⟩ := h.of_mem hEntry
  cases hChain with
  | node here behind => exact NodeHeap.lt_length_of_load here

/-- Where all nodes that were there are kept, a list is too. -/
theorem grow (h : Chain heap pointer nodes)
    (hKept : ∀ address < heap.length, heap'.load address = heap.load address) :
    Chain heap' pointer nodes := by
  apply h.frame
  intro entry hEntry node hLoad
  rw [hKept _ (NodeHeap.lt_length_of_load hLoad)]
  exact hLoad

/-- Where other nodes are freed, a list is kept. -/
theorem clear (h : Chain heap pointer nodes) {addresses : List Nat}
    (hOther : ∀ address ∈ addresses, address ∉ nodes.map Prod.fst) :
    Chain (heap.clear addresses) pointer nodes := by
  apply h.frame
  intro entry hEntry node hLoad
  rw [NodeHeap.load_clear, if_neg, hLoad]
  exact fun hMem => hOther entry.1 hMem (List.mem_map_of_mem hEntry)

theorem length_le (h : Chain heap pointer nodes) : nodes.length ≤ heap.length := by
  have hInside : nodes.map Prod.fst ⊆ List.range heap.length := fun address hMem =>
    List.mem_range.mpr (h.lt_length hMem)
  simpa using (h.nodup.subperm hInside).length_le

theorem find_eq (h : Chain heap pointer nodes) (p : α → Bool) {fuel : Nat}
    (hFuel : nodes.length < fuel) :
    heap.find p fuel pointer = some ((nodes.find? fun entry => p entry.2).map Prod.fst) := by
  induction h generalizing fuel with
  | null => cases fuel <;> rfl
  | @node address value next rest here behind ih =>
      obtain ⟨fuel, rfl⟩ := Nat.exists_eq_add_of_lt (Nat.lt_of_le_of_lt (Nat.zero_le _) hFuel)
      rw [Nat.zero_add] at hFuel ⊢
      rw [NodeHeap.find, here, Option.bind_some, List.find?_cons]
      cases p value with
      | true => rfl
      | false => exact ih (Nat.lt_of_succ_lt_succ hFuel)

theorem load_last {front : List (Nat × α)} {last : Nat} {value : α}
    (h : Chain heap pointer (front ++ [(last, value)])) :
    heap.load last = some { value := value, next := none } := by
  induction front generalizing pointer with
  | nil =>
      cases h with
      | node here behind =>
          cases behind with
          | null => exact here
  | cons entry front ih =>
      cases h with
      | node here behind => exact ih behind

/-- A node that is not in the list is linked behind its last one. -/
theorem link {front : List (Nat × α)} {last fresh : Nat} {value value' : α}
    (h : Chain heap pointer (front ++ [(last, value)]))
    (hFresh : heap.load fresh = some { value := value', next := none })
    (hNot : fresh ∉ (front ++ [(last, value)]).map Prod.fst) :
    Chain (heap.set last (some { value := value, next := some fresh })) pointer
      (front ++ [(last, value), (fresh, value')]) := by
  induction front generalizing pointer with
  | nil =>
      cases h with
      | node here behind =>
          apply node
          · rw [NodeHeap.load_set, if_pos ⟨rfl, NodeHeap.lt_length_of_load here⟩]
          · have hOther : last ∉ [(fresh, value')].map Prod.fst := by
              intro hMem
              exact hNot (by simpa using (List.mem_singleton.mp hMem).symm)
            exact (node hFresh null).set_of_notMem hOther _
  | cons entry front ih =>
      have hNodup := h.nodup
      cases h with
      | node here behind =>
          rw [List.cons_append, List.map_cons, List.nodup_cons] at hNodup
          rw [List.cons_append, List.map_cons, List.mem_cons, not_or] at hNot
          apply node
          · rw [NodeHeap.load_set, if_neg]
            · exact here
            · intro hSame
              exact hNodup.1 (hSame.1 ▸ by simp)
          · exact ih behind hNot.2

end Chain

end CMemory
