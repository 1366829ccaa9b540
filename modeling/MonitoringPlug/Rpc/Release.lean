import MonitoringPlug.Rpc.Exports

/-! `mp_xdr_exports` where it frees: the nodes and strings of a list that was decoded. -/
namespace MonitoringPlug.Rpc

open CMemory CStream Xdr

section Free

variable (xdr : Library)

def xdrFreeString (maxsize : Nat) (s : Option Bytes) : Except Stop (Option Bytes) :=
  (xdr.free maxsize s).elim (.error .returnFalse) .ok

/-- The inner loop. -/
def freeGroups : Nat → Option Nat → ExportsState → Except Stop ExportsState
  | _, none, s => .ok s
  | 0, some _, _ => .error .undefined
  | fuel + 1, some group, s => do
      let node ← access (s.groupNodes.load group)
      let grName ← xdrFreeString xdr mntNamLen node.value
      let groupNodes ← access (s.groupNodes.modify group fun n => { n with value := grName })
      let node ← access (groupNodes.load group)
      let groupNodes ← access (groupNodes.free group)
      freeGroups fuel node.next { s with groupNodes := groupNodes }

/-- The outer loop. No list has more nodes than there are. -/
def freeExports : Nat → Option Nat → ExportsState → Except Stop ExportsState
  | _, none, s => .ok s
  | 0, some _, _ => .error .undefined
  | fuel + 1, some node, s => do
      let n ← access (s.exportNodes.load node)
      let exDir ← xdrFreeString xdr mntPathLen n.value.exDir
      let exportNodes ← access (s.exportNodes.modify node fun n =>
        { n with value := { n.value with exDir := exDir } })
      let s ← freeGroups xdr (s.groupNodes.length + 1) n.value.exGroups
        { s with exportNodes := exportNodes }
      let n ← access (s.exportNodes.load node)
      let exportNodes ← access (s.exportNodes.free node)
      freeExports fuel n.next { s with exportNodes := exportNodes }

def mpXdrExportsFree (s : ExportsState) : Except Stop ExportsState :=
  freeExports xdr (s.exportNodes.length + 1) s.exports s

end Free

/-- A string that `xdr_string` frees. -/
def Frees (maxsize : Nat) (s : Option Bytes) : Prop := ∀ text ∈ s, text.length ≤ maxsize

theorem xdrFreeString_ok (xdr : Library) {maxsize : Nat} {s : Option Bytes}
    (h : Frees maxsize s) : xdrFreeString xdr maxsize s = .ok none := by
  rw [xdrFreeString, xdr.free_read maxsize s h]
  rfl

section Groups

variable (xdr : Library) {s : ExportsState} {fuel : Nat} {pointer : Option Nat}
  {nodes : List (Nat × Option Bytes)}

/-- One round frees one node, and the list goes on behind it. -/
theorem freeGroups_node {group : Nat} {name : Option Bytes} {next : Option Nat}
    (hLoad : s.groupNodes.load group = some { value := name, next := next })
    (hName : Frees mntNamLen name) :
    freeGroups xdr (fuel + 1) (some group) s =
      freeGroups xdr fuel next { s with groupNodes := s.groupNodes.set group none } := by
  have hStored := NodeHeap.load_set_self hLoad { value := none, next := next }
  simp only [freeGroups, hLoad, access, xdrFreeString_ok xdr hName, NodeHeap.modify_eq hLoad,
    hStored, NodeHeap.free_eq hStored, List.set_set, bind, Except.bind]

theorem freeGroups_chain (h : Chain s.groupNodes pointer nodes)
    (hNames : ∀ entry ∈ nodes, Frees mntNamLen entry.2) (hFuel : nodes.length < fuel) :
    freeGroups xdr fuel pointer s =
      .ok { s with groupNodes := s.groupNodes.clear (nodes.map Prod.fst) } := by
  induction nodes generalizing s fuel pointer with
  | nil =>
      cases h
      cases fuel <;> rfl
  | cons entry nodes ih =>
      obtain ⟨fuel, rfl⟩ := Nat.exists_eq_add_of_lt (Nat.lt_of_le_of_lt (Nat.zero_le _) hFuel)
      rw [Nat.zero_add] at hFuel ⊢
      obtain ⟨hName, hRest⟩ := List.forall_mem_cons.mp hNames
      cases h with
      | node here behind =>
          have hOther := (Chain.node here behind).address_notMem
          rw [freeGroups_node xdr here hName,
            ih (behind.set_of_notMem hOther none) hRest (Nat.lt_of_succ_lt_succ hFuel)]
          rfl

end Groups

/-- The groups of these exports. -/
def OwnGroups (groupNodes : NodeHeap (Option Bytes)) (nodes : List (Nat × ExportNode))
    (groups : List (List (Nat × Option Bytes))) : Prop :=
  List.Forall₂ (fun entry own => Chain groupNodes entry.2.exGroups own) nodes groups

/-- A list that can be freed: no group belongs to two exports, and all strings are as
short as they are decoded. -/
structure Freeable (s : ExportsState) (nodes : List (Nat × ExportNode))
    (groups : List (List (Nat × Option Bytes))) : Prop where
  own : OwnGroups s.groupNodes nodes groups
  disjoint : (groups.flatten.map Prod.fst).Nodup
  dirs : ∀ entry ∈ nodes, Frees mntPathLen entry.2.exDir
  names : ∀ entry ∈ groups.flatten, Frees mntNamLen entry.2

theorem OwnGroups.clear {groupNodes : NodeHeap (Option Bytes)} {nodes : List (Nat × ExportNode)}
    {groups : List (List (Nat × Option Bytes))} (h : OwnGroups groupNodes nodes groups)
    {addresses : List Nat}
    (hOther : ∀ address ∈ addresses, address ∉ groups.flatten.map Prod.fst) :
    OwnGroups (groupNodes.clear addresses) nodes groups := by
  induction h with
  | nil => exact List.Forall₂.nil
  | cons hFirst hRest ih =>
      refine List.Forall₂.cons (hFirst.clear fun address hMem hOwn => ?_)
        (ih fun address hMem hOwn => ?_)
      · exact hOther address hMem (by simp only [List.flatten_cons, List.map_append]; simp_all)
      · exact hOther address hMem (by simp only [List.flatten_cons, List.map_append]; simp_all)

section Exports

variable (xdr : Library) {s : ExportsState} {fuel : Nat} {pointer : Option Nat}
  {nodes : List (Nat × ExportNode)} {groups : List (List (Nat × Option Bytes))}

/-- One round frees one export with its groups. -/
theorem freeExports_node {node : Nat} {value : ExportNode} {next : Option Nat}
    {own : List (Nat × Option Bytes)}
    (hLoad : s.exportNodes.load node = some { value := value, next := next })
    (hDir : Frees mntPathLen value.exDir) (hOwn : Chain s.groupNodes value.exGroups own)
    (hNames : ∀ entry ∈ own, Frees mntNamLen entry.2) :
    freeExports xdr (fuel + 1) (some node) s =
      freeExports xdr fuel next { s with
        exportNodes := s.exportNodes.set node none
        groupNodes := s.groupNodes.clear (own.map Prod.fst) } := by
  have hStored := NodeHeap.load_set_self hLoad
    { value := { value with exDir := none }, next := next }
  let emptied : ExportsState := { s with
    exportNodes := s.exportNodes.set node
      (some { value := { value with exDir := none }, next := next }) }
  have hGroups : freeGroups xdr (s.groupNodes.length + 1) value.exGroups emptied = _ :=
    freeGroups_chain xdr hOwn hNames (Nat.lt_succ_of_le hOwn.length_le)
  simp only [emptied] at hGroups
  simp only [freeExports, hLoad, access, xdrFreeString_ok xdr hDir, NodeHeap.modify_eq hLoad, hGroups,
    hStored, NodeHeap.free_eq hStored, List.set_set, bind, Except.bind]

theorem freeExports_chain (h : Chain s.exportNodes pointer nodes) (hFree : Freeable s nodes groups)
    (hFuel : nodes.length < fuel) :
    freeExports xdr fuel pointer s =
      .ok { s with
        exportNodes := s.exportNodes.clear (nodes.map Prod.fst)
        groupNodes := s.groupNodes.clear (groups.flatten.map Prod.fst) } := by
  induction nodes generalizing s fuel pointer groups with
  | nil =>
      cases h
      cases hFree.own
      cases fuel <;> rfl
  | cons entry nodes ih =>
      obtain ⟨fuel, rfl⟩ := Nat.exists_eq_add_of_lt (Nat.lt_of_le_of_lt (Nat.zero_le _) hFuel)
      rw [Nat.zero_add] at hFuel ⊢
      obtain ⟨hOwn, hDisjoint, hDirs, hNames⟩ := hFree
      cases hOwn with
      | @cons _ own _ rest hFirst hRest =>
          obtain ⟨hDir, hRestDirs⟩ := List.forall_mem_cons.mp hDirs
          rw [List.flatten_cons, List.map_append, List.nodup_append] at hDisjoint
          rw [List.flatten_cons, List.forall_mem_append] at hNames
          cases h with
          | @node address _ _ _ here behind =>
              have hOther := (Chain.node here behind).address_notMem
              have hRestOwn := OwnGroups.clear hRest fun address hMem hOwn =>
                hDisjoint.2.2 address hMem address hOwn rfl
              have hLess : Freeable { s with
                  exportNodes := s.exportNodes.set address none
                  groupNodes := s.groupNodes.clear (own.map Prod.fst) } nodes rest :=
                ⟨hRestOwn, hDisjoint.2.1, hRestDirs, hNames.2⟩
              rw [freeExports_node xdr here hDir hFirst hNames.1,
                ih (behind.set_of_notMem hOther none) hLess (Nat.lt_of_succ_lt_succ hFuel),
                List.flatten_cons, List.map_append, NodeHeap.clear_append]
              rfl

/-- A list that can be freed is freed, each of its nodes once. -/
theorem mpXdrExportsFree_eq (h : Chain s.exportNodes s.exports nodes)
    (hFree : Freeable s nodes groups) :
    mpXdrExportsFree xdr s =
      .ok { s with
        exportNodes := s.exportNodes.clear (nodes.map Prod.fst)
        groupNodes := s.groupNodes.clear (groups.flatten.map Prod.fst) } :=
  freeExports_chain xdr h hFree (Nat.lt_succ_of_le h.length_le)

end Exports

theorem modify_domain {α : Type} {heap heap' : NodeHeap α} {address : Nat} {f : Node α → Node α}
    (h : heap.modify address f = some heap') :
    heap'.length = heap.length ∧
      (∀ other, (heap'.load other).isSome = (heap.load other).isSome) ∧
      ∀ other ≠ address, heap'.load other = heap.load other := by
  rw [NodeHeap.modify, Option.map_eq_some_iff] at h
  obtain ⟨node, hLoad, rfl⟩ := h
  refine ⟨List.length_set, fun other => ?_, fun other hOther => ?_⟩
  · rw [NodeHeap.load_set]
    split
    · rename_i hSame
      rw [hSame.1, hLoad]
      rfl
    · rfl
  · rw [NodeHeap.load_set, if_neg fun hSame => hOther hSame.1]

/-- Linking a group neither allocates nor frees. -/
theorem linkGroup_domain {node group : Nat} {s s' : ExportsState}
    (h : linkGroup node group s = some s') :
    s'.exportNodes.length = s.exportNodes.length ∧
      ∀ address, (s'.groupNodes.load address).isSome = (s.groupNodes.load address).isSome := by
  simp only [linkGroup, Option.bind_eq_bind, Option.bind_eq_some_iff] at h
  obtain ⟨exportNode, -, hBranch⟩ := h
  split at hBranch
  · obtain ⟨groupNodes, hModify, hSame⟩ := Option.bind_eq_some_iff.mp hBranch
    cases hSame
    exact ⟨rfl, (modify_domain hModify).2.1⟩
  · obtain ⟨exportNodes, hModify, hSame⟩ := Option.bind_eq_some_iff.mp hBranch
    cases hSame
    exact ⟨(modify_domain hModify).1, fun _ => rfl⟩

/-- Nor does linking an export, and it writes to the last one of the list only. -/
theorem linkExport_domain {node : Nat} {s s' : ExportsState}
    (h : linkExport node s = some s') :
    s'.groupNodes = s.groupNodes ∧ s'.exportNodes.length = s.exportNodes.length ∧
      (∀ address, (s'.exportNodes.load address).isSome = (s.exportNodes.load address).isSome) ∧
      ∀ address, s'.exportNodes.load address ≠ s.exportNodes.load address →
        s.exports ≠ none ∧ s.prev = some address := by
  rw [linkExport] at h
  split at h
  · cases h
    exact ⟨rfl, rfl, fun _ => rfl, fun _ hOther => absurd rfl hOther⟩
  · rename_i hExports
    simp only [Option.bind_eq_bind, Option.bind_eq_some_iff] at h
    obtain ⟨prev, hPrev, exportNodes, hModify, hSame⟩ := h
    cases hSame
    refine ⟨rfl, (modify_domain hModify).1, (modify_domain hModify).2.1, fun address hOther => ?_⟩
    refine ⟨by simp [hExports], ?_⟩
    rw [hPrev, Option.some.injEq]
    by_contra hNot
    exact hOther ((modify_domain hModify).2.2 address (Ne.symm hNot))

/-- While the groups of an export are read, from any stream. -/
structure GroupsTaken (start s : ExportsState) (node : Nat) (dir : Bytes)
    (nodes : List (Nat × Option Bytes)) (pointer : Option Nat) : Prop
    extends GroupsRead start s node dir nodes pointer where
  size : s.exportNodes.length = start.exportNodes.length
  covered : ∀ address, start.groupNodes.length ≤ address →
    (s.groupNodes.load address).isSome → address ∈ nodes.map Prod.fst
  names : ∀ entry ∈ nodes, ∃ name : Bytes, entry.2 = some name ∧ name.length ≤ mntNamLen

/-- In front of each round of the outer loop: what was allocated since the start is in the
list, and can be freed. -/
structure ExportsTaken (start s : ExportsState) (nodes : List (Nat × ExportNode))
    (groups : List (List (Nat × Option Bytes))) (done : List Export) : Prop
    extends ExportsRead s nodes done, Freeable s nodes groups where
  exportsOwn : NodeHeap.Allocated start.exportNodes s.exportNodes (nodes.map Prod.fst)
  groupsOwn : NodeHeap.Allocated start.groupNodes s.groupNodes (groups.flatten.map Prod.fst)

section NewExport

/-! One more export, whose groups were read behind the allocation of its node. -/

variable {start s s' : ExportsState} {dir : Bytes} {nodes : List (Nat × ExportNode)}
  {groups : List (List (Nat × Option Bytes))} {done : List Export}
  {own : List (Nat × Option Bytes)} {pointer : Option Nat}

/-- The state behind the allocation. -/
def withExport (s : ExportsState) (dir : Bytes) : ExportsState := { s with
  exportNodes :=
    (s.exportNodes.alloc { value := { exDir := some dir, exGroups := none }, next := none }).2 }

theorem OwnGroups.lt_length {groupNodes : NodeHeap (Option Bytes)}
    (h : OwnGroups groupNodes nodes groups) {address : Nat}
    (hMem : address ∈ groups.flatten.map Prod.fst) : address < groupNodes.length := by
  induction h with
  | nil => cases hMem
  | cons hFirst hRest ih =>
      rw [List.flatten_cons, List.map_append] at hMem
      rcases List.mem_append.mp hMem with hOwn | hOther
      · exact hFirst.lt_length hOwn
      · exact ih hOther

theorem GroupsTaken.freeable
    (hTaken : GroupsTaken (withExport s dir) s' s.exportNodes.length dir own pointer)
    (h : Freeable s nodes groups) (hDir : dir.length ≤ mntPathLen) :
    Freeable s' (nodes ++ [(s.exportNodes.length, { exDir := some dir, exGroups := pointer })])
      (groups ++ [own]) := by
  have hFlatten : (groups ++ [own]).flatten = groups.flatten ++ own := by simp
  constructor
  · refine List.rel_append (h.own.imp fun _ _ hOwn => hOwn.grow hTaken.kept) ?_
    exact List.Forall₂.cons hTaken.chain List.Forall₂.nil
  · rw [hFlatten, List.map_append, List.nodup_append]
    refine ⟨h.disjoint, hTaken.chain.nodup, ?_⟩
    rintro address hOld other hNew rfl
    obtain ⟨entry, hEntry, rfl⟩ := List.mem_map.mp hNew
    exact Nat.not_le_of_lt (h.own.lt_length hOld) (hTaken.fresh entry hEntry)
  · rw [List.forall_mem_append, List.forall_mem_singleton]
    refine ⟨h.dirs, fun text hText => ?_⟩
    cases hText
    exact hDir
  · rw [hFlatten, List.forall_mem_append]
    refine ⟨h.names, fun entry hEntry text hText => ?_⟩
    obtain ⟨name, hName, hLength⟩ := hTaken.names entry hEntry
    rw [hName] at hText
    cases hText
    exact hLength

theorem GroupsTaken.groupsOwn
    (hTaken : GroupsTaken (withExport s dir) s' s.exportNodes.length dir own pointer)
    (h : NodeHeap.Allocated start.groupNodes s.groupNodes (groups.flatten.map Prod.fst)) :
    NodeHeap.Allocated start.groupNodes s'.groupNodes
      ((groups ++ [own]).flatten.map Prod.fst) := by
  have hFlatten : (groups ++ [own]).flatten = groups.flatten ++ own := by simp
  rw [hFlatten, List.map_append]
  constructor
  · exact Nat.le_trans h.grown hTaken.grown
  · intro address hInside
    rw [← h.kept address hInside]
    exact hTaken.kept address (Nat.lt_of_lt_of_le hInside h.grown)
  · intro address hMem
    rcases List.mem_append.mp hMem with hOld | hNew
    · exact h.fresh address hOld
    · obtain ⟨entry, hEntry, rfl⟩ := List.mem_map.mp hNew
      exact Nat.le_trans h.grown (hTaken.fresh entry hEntry)
  · intro address hBehind hSome
    by_cases hOld : address < s.groupNodes.length
    · rw [hTaken.kept address hOld] at hSome
      exact List.mem_append_left _ (h.covered address hBehind hSome)
    · exact List.mem_append_right _ (hTaken.covered address (Nat.le_of_not_lt hOld) hSome)

/-- The node of the export is the one that was allocated. -/
theorem GroupsTaken.exportsOwn {s'' : ExportsState}
    (hTaken : GroupsTaken (withExport s dir) s' s.exportNodes.length dir own pointer)
    (h : NodeHeap.Allocated start.exportNodes s.exportNodes (nodes.map Prod.fst))
    (hRead : ExportsRead s nodes done) (hLink : linkExport s.exportNodes.length s' = some s'') :
    NodeHeap.Allocated start.exportNodes s''.exportNodes
      ((nodes ++ [(s.exportNodes.length, ({ exDir := some dir, exGroups := pointer } :
        ExportNode))]).map Prod.fst) := by
  obtain ⟨-, hLength, hDomain, hWritten⟩ := linkExport_domain hLink
  have hSize : s'.exportNodes.length = s.exportNodes.length + 1 := by
    rw [hTaken.size]
    simp [withExport, NodeHeap.alloc]
  rw [List.map_append]
  constructor
  · have hGrown := h.grown
    omega
  · intro address hInside
    have hOld : address < s.exportNodes.length := Nat.lt_of_lt_of_le hInside h.grown
    have hSame : s''.exportNodes.load address = s'.exportNodes.load address := by
      by_contra hOther
      obtain ⟨hSome, hPrev⟩ := hWritten address hOther
      rw [hTaken.exports] at hSome
      rw [hTaken.prev] at hPrev
      have hNodes : nodes ≠ [] := fun hNil => hSome (hRead.chain.pointer_eq_none_iff.mpr hNil)
      have hLast := hRead.last _ (List.getLast?_eq_some_getLast hNodes)
      obtain rfl := Option.some.inj (hPrev.symm.trans hLast)
      exact Nat.not_le_of_lt hInside
        (h.fresh _ (List.mem_map_of_mem (List.getLast_mem hNodes)))
    rw [hSame, hTaken.others address (Nat.ne_of_lt hOld), ← h.kept address hInside]
    exact NodeHeap.load_alloc_of_lt hOld _
  · intro address hMem
    rcases List.mem_append.mp hMem with hOld | hNew
    · exact h.fresh address hOld
    · rw [List.mem_singleton.mp hNew]
      exact h.grown
  · intro address hBehind hSome
    rw [hDomain] at hSome
    by_cases hNew : address = s.exportNodes.length
    · rw [hNew]
      exact List.mem_append_right _ (List.mem_singleton_self _)
    · rw [hTaken.others address hNew] at hSome
      exact List.mem_append_left _ (h.covered address hBehind
        ((NodeHeap.isSome_load_alloc hSome).resolve_left hNew))

theorem GroupsTaken.values
    (hTaken : GroupsTaken (withExport s dir) s' s.exportNodes.length dir own pointer) :
    ∃ names : List Bytes, own.map Prod.snd = names.map some ∧
      ∀ name ∈ names, name.length ≤ mntNamLen := by
  have hNames := hTaken.names
  clear hTaken
  induction own with
  | nil => exact ⟨[], rfl, by simp⟩
  | cons entry own ih =>
      obtain ⟨hFirst, hRest⟩ := List.forall_mem_cons.mp hNames
      obtain ⟨name, hName, hLength⟩ := hFirst
      obtain ⟨names, hValues, hLengths⟩ := ih hRest
      refine ⟨name :: names, ?_, List.forall_mem_cons.mpr ⟨hLength, hLengths⟩⟩
      rw [List.map_cons, List.map_cons, hName, hValues]

end NewExport

section Take

variable {xdr : Library} (hBounded : xdr.Bounded)

include hBounded

theorem xdrBool_safe (stream : Bytes) :
    Safe .returnFalse (xdrBool xdr) stream fun _ rest => rest.length < stream.length := by
  rw [Safe, xdrBool]
  cases hRead : xdr.bool stream with
  | none => exact Or.inl rfl
  | some read => exact Or.inr ⟨read.1, read.2, rfl, hBounded.bool _ _ _ hRead⟩

theorem xdrString_safe (maxsize : Nat) (stream : Bytes) :
    Safe .returnFalse (xdrString xdr maxsize) stream fun s rest =>
      s.length ≤ maxsize ∧ rest.length ≤ stream.length := by
  rw [Safe, xdrString]
  cases hRead : xdr.string maxsize stream with
  | none => exact Or.inl rfl
  | some read => exact Or.inr ⟨read.1, read.2, rfl, hBounded.string _ _ _ _ hRead⟩

theorem readGroup_safe {start s : ExportsState} {node : Nat} {dir : Bytes}
    {nodes : List (Nat × Option Bytes)} {pointer : Option Nat}
    (h : GroupsTaken start s node dir nodes pointer) (stream : Bytes) :
    Safe .returnFalse (readGroup xdr node s) stream fun s' rest =>
      rest.length ≤ stream.length ∧
        ∃ entry pointer', GroupsTaken start s' node dir (nodes ++ [entry]) pointer' := by
  rw [readGroup]
  apply (xdrString_safe hBounded mntNamLen stream).bind
  rintro name rest ⟨hName, hRest⟩
  obtain ⟨linked, pointer', hLink, hRead⟩ := h.toGroupsRead.link name
  apply Safe.lift (congrArg access (NodeHeap.modify_alloc _))
  rw [← bind_pure (liftM _ : XdrM ExportsState)]
  apply Safe.lift (congrArg access hLink)
  obtain ⟨hSize, hDomain⟩ := linkGroup_domain hLink
  refine Safe.pure ⟨hRest, _, pointer', hRead, hSize.trans h.size, fun address hBehind hSome => ?_,
    ?_⟩
  · rw [hDomain] at hSome
    rw [List.map_append]
    rcases NodeHeap.isSome_load_alloc hSome with rfl | hOld
    · exact List.mem_append_right _ (List.mem_singleton_self _)
    · exact List.mem_append_left _ (h.covered address hBehind hOld)
  · rw [List.forall_mem_append, List.forall_mem_singleton]
    exact ⟨h.names, name, rfl, hName⟩

/-- The inner loop on any stream that is shorter than its fuel. -/
theorem groupLoop_safe {start s : ExportsState} {node fuel : Nat} {dir : Bytes}
    {nodes : List (Nat × Option Bytes)} {pointer : Option Nat}
    (h : GroupsTaken start s node dir nodes pointer) {stream : Bytes}
    (hFuel : stream.length < fuel) :
    Safe .returnFalse (groupLoop xdr node fuel s) stream fun s' rest =>
      rest.length ≤ stream.length ∧
        ∃ nodes' pointer', GroupsTaken start s' node dir nodes' pointer' := by
  induction fuel generalizing s nodes pointer stream with
  | zero => cases hFuel
  | succ fuel ih =>
      rw [groupLoop]
      apply (xdrBool_safe hBounded stream).bind
      rintro more rest hRest
      cases more with
      | false => exact Safe.pure ⟨Nat.le_of_lt hRest, nodes, pointer, h⟩
      | true =>
          rw [if_pos rfl]
          apply (readGroup_safe hBounded h rest).bind
          rintro next rest' ⟨hRest', entry, pointer', hNext⟩
          apply (ih hNext (by omega)).imp
          rintro s' rest'' ⟨hRest'', hTaken⟩
          exact ⟨by omega, hTaken⟩

theorem readExport_safe {start s : ExportsState}
    {nodes : List (Nat × ExportNode)} {groups : List (List (Nat × Option Bytes))}
    {done : List Export} (h : ExportsTaken start s nodes groups done) (stream : Bytes) :
    Safe .returnFalse (readExport xdr s) stream fun s' rest =>
      rest.length ≤ stream.length ∧
        ∃ nodes' groups' done', ExportsTaken start s' nodes' groups' done' := by
  rw [readExport]
  apply (xdrString_safe hBounded mntPathLen stream).bind
  rintro dir rest ⟨hDir, hRest⟩
  apply Safe.lift (congrArg access (NodeHeap.modify_alloc _))
  have hStart : GroupsTaken (withExport s dir) (withExport s dir) s.exportNodes.length dir []
      none :=
    { own := NodeHeap.load_alloc_self _
      others := fun _ _ => rfl
      kept := fun _ _ => rfl
      grown := Nat.le_refl _
      chain := Chain.null
      fresh := List.forall_mem_nil _
      last := by rintro _ ⟨⟩
      exports := rfl
      prev := rfl
      size := rfl
      covered := (NodeHeap.Allocated.refl _).covered
      names := List.forall_mem_nil _ }
  have hGroups : Safe .returnFalse (readGroups xdr s.exportNodes.length (withExport s dir)) rest
      _ :=
    groupLoop_safe hBounded hStart (Nat.lt_succ_self _)
  apply hGroups.bind
  rintro taken rest' ⟨hRest', own, pointer, hTaken⟩
  obtain ⟨names, hNames, hLengths⟩ := hTaken.values
  obtain ⟨linked, hLink, hRead⟩ := h.toExportsRead.link
    (e := { dir := dir, groups := names, dir_short := hDir, groups_short := hLengths })
    hTaken.toGroupsRead hNames
  rw [← bind_pure (liftM _ : XdrM ExportsState)]
  apply Safe.lift (congrArg access hLink)
  have hFree := hTaken.freeable h.toFreeable hDir
  have hGroupsOwn := hTaken.groupsOwn h.groupsOwn
  rw [← (linkExport_domain hLink).1] at hGroupsOwn
  exact Safe.pure ⟨Nat.le_trans hRest' hRest, _, _, _, hRead,
    ⟨(linkExport_domain hLink).1 ▸ hFree.own, hFree.disjoint, hFree.dirs, hFree.names⟩,
    hTaken.exportsOwn h.exportsOwn h.toExportsRead hLink, hGroupsOwn⟩

theorem exportLoop_safe {start s : ExportsState} {fuel : Nat}
    {nodes : List (Nat × ExportNode)} {groups : List (List (Nat × Option Bytes))}
    {done : List Export} (h : ExportsTaken start s nodes groups done) {stream : Bytes}
    (hFuel : stream.length < fuel) :
    Safe .returnFalse (exportLoop xdr fuel s) stream fun s' _ =>
      ∃ nodes' groups' done', ExportsTaken start s' nodes' groups' done' := by
  induction fuel generalizing s nodes groups done stream with
  | zero => cases hFuel
  | succ fuel ih =>
      rw [exportLoop]
      apply (xdrBool_safe hBounded stream).bind
      rintro more rest hRest
      cases more with
      | false => exact Safe.pure ⟨nodes, groups, done, h⟩
      | true =>
          rw [if_pos rfl]
          apply (readExport_safe hBounded h rest).bind
          rintro next rest' ⟨hRest', _, _, _, hNext⟩
          exact ih hNext (by omega)

/-- Decoding of any stream, from any nodes on. -/
theorem mpXdrExports_safe (s : ExportsState) (stream : Bytes) :
    Safe .returnFalse (mpXdrExports xdr s) stream fun s' _ =>
      ∃ nodes groups done, ExportsTaken s s' nodes groups done := by
  have hStart : ExportsTaken s { s with exports := none, prev := none, prevGroup := none } [] []
      [] :=
    { chain := Chain.null
      contents := List.Forall₂.nil
      last := by rintro _ ⟨⟩
      own := List.Forall₂.nil
      disjoint := List.nodup_nil
      dirs := List.forall_mem_nil _
      names := List.forall_mem_nil _
      exportsOwn := NodeHeap.Allocated.refl _
      groupsOwn := NodeHeap.Allocated.refl _ }
  exact exportLoop_safe hBounded hStart (Nat.lt_succ_self _)

/-- Whatever a server sends, decoding returns FALSE or a list, without an access to a node
that is not there. A list is freed in the same way, and then the nodes are those from
before the decoding: nothing is lost and nothing is freed twice. -/
theorem mpXdrExports_released (s : ExportsState) (stream : Bytes) :
    mpXdrExports xdr s stream = .error .returnFalse ∨
      ∃ s' rest es released, mpXdrExports xdr s stream = .ok (s', rest) ∧ HasExports s' es ∧
        mpXdrExportsFree xdr s' = .ok released ∧
        (∀ address, released.exportNodes.load address = s.exportNodes.load address) ∧
        ∀ address, released.groupNodes.load address = s.groupNodes.load address := by
  refine (mpXdrExports_safe hBounded s stream).imp_right ?_
  rintro ⟨s', rest, hRun, nodes, groups, done, hTaken⟩
  exact ⟨s', rest, done, _, hRun, ⟨nodes, hTaken.chain, hTaken.contents⟩,
    mpXdrExportsFree_eq xdr hTaken.chain hTaken.toFreeable, hTaken.exportsOwn.load_clear,
    hTaken.groupsOwn.load_clear⟩

end Take

/-- The two exports of the sample, decoded and freed. -/
theorem mpXdrExports_released_sample :
    mpXdrExports standard noNodes (encodeExports groupsOfFirst ++ [7]) = .error .returnFalse ∨
      ∃ s' rest es released,
        mpXdrExports standard noNodes (encodeExports groupsOfFirst ++ [7]) = .ok (s', rest) ∧
        HasExports s' es ∧ mpXdrExportsFree standard s' = .ok released ∧
        (∀ address, released.exportNodes.load address = none) ∧
        ∀ address, released.groupNodes.load address = none :=
  mpXdrExports_released standard_bounded noNodes _

end MonitoringPlug.Rpc
