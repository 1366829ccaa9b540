import MonitoringPlug.Lib.Chain
import MonitoringPlug.Lib.Decoder
import MonitoringPlug.Lib.Xdr

/-! `mp_xdr_exports`: the list of a server's exports, with the list of groups of each, as
it is decoded into linked lists. -/
namespace MonitoringPlug.Rpc

open CMemory CStream Xdr

def mntPathLen : Nat := 1024
def mntNamLen : Nat := 255

/-- `exportnode` without its `ex_next`. A `groupnode` has only a name besides. -/
structure ExportNode where
  exDir : Option Bytes
  exGroups : Option Nat
deriving DecidableEq

/-- The nodes that are allocated, the list, and the pointers kept between the rounds. -/
structure ExportsState where
  exportNodes : NodeHeap ExportNode
  groupNodes : NodeHeap (Option Bytes)
  exports : Option Nat
  prev : Option Nat
  prevGroup : Option Nat

/-- What else can come of decoding than `return (TRUE)`. -/
inductive Stop where
  | returnFalse
  | undefined
deriving DecidableEq

abbrev XdrM := Decoder UInt8 Stop

/-- What a pointer yields. No result for one to no node. -/
def access {α : Type} : Option α → Except Stop α
  | none => .error .undefined
  | some a => .ok a

/-- The branches for the first group of an export and for a further one. -/
def linkGroup (node group : Nat) (s : ExportsState) : Option ExportsState := do
  let exportNode ← s.exportNodes.load node
  match exportNode.value.exGroups, s.prevGroup with
  | some _, some prevGroup =>
      let groupNodes ← s.groupNodes.modify prevGroup fun n => { n with next := some group }
      some { s with groupNodes := groupNodes, prevGroup := some group }
  | _, _ =>
      let exportNodes ← s.exportNodes.modify node fun n =>
        { n with value := { n.value with exGroups := some group } }
      some { s with exportNodes := exportNodes, prevGroup := some group }

/-- The branches for the first export and for a further one. -/
def linkExport (node : Nat) (s : ExportsState) : Option ExportsState :=
  match s.exports with
  | none => some { s with exports := some node, prev := some node }
  | some _ => do
      let prev ← s.prev
      let exportNodes ← s.exportNodes.modify prev fun n => { n with next := some node }
      some { s with exportNodes := exportNodes, prev := some node }

section Decode

variable (xdr : Library)

def xdrBool : XdrM Bool := fun stream =>
  match xdr.bool stream with
  | none => .error .returnFalse
  | some result => .ok result

def xdrString (maxsize : Nat) : XdrM Bytes := fun stream =>
  match xdr.string maxsize stream with
  | none => .error .returnFalse
  | some result => .ok result

/-- One round of the inner loop. -/
def readGroup (node : Nat) (s : ExportsState) : XdrM ExportsState := do
  let (group, groupNodes) := s.groupNodes.alloc { value := none, next := none }
  let grName ← xdrString xdr mntNamLen
  let groupNodes ← liftM (access (groupNodes.modify group fun n => { n with value := some grName }))
  liftM (access (linkGroup node group { s with groupNodes := groupNodes }))

/-- The inner loop, where `more` is read in front of each round. -/
def groupLoop (node : Nat) : Nat → ExportsState → XdrM ExportsState
  | 0, _ => liftM (access (none : Option ExportsState))
  | fuel + 1, s => do
      let more ← xdrBool xdr
      if more then do
        let s ← readGroup xdr node s
        groupLoop node fuel s
      else pure s

/-- Each round reads from the stream, so there are no more of them than it has bytes. -/
def readGroups (node : Nat) (s : ExportsState) : XdrM ExportsState := do
  let stream ← get
  groupLoop xdr node (stream.length + 1) s

/-- One round of the outer loop. -/
def readExport (s : ExportsState) : XdrM ExportsState := do
  let (node, exportNodes) := s.exportNodes.alloc
    { value := { exDir := none, exGroups := none }, next := none }
  let exDir ← xdrString xdr mntPathLen
  let exportNodes ← liftM (access (exportNodes.modify node fun n =>
    { n with value := { n.value with exDir := some exDir } }))
  let s ← readGroups xdr node { s with exportNodes := exportNodes }
  liftM (access (linkExport node s))

def exportLoop : Nat → ExportsState → XdrM ExportsState
  | 0, _ => liftM (access (none : Option ExportsState))
  | fuel + 1, s => do
      let more ← xdrBool xdr
      if more then do
        let s ← readExport xdr s
        exportLoop fuel s
      else pure s

/-- `mp_xdr_exports` where it decodes, with whatever nodes there are already. -/
def mpXdrExports (s : ExportsState) : XdrM ExportsState := do
  let stream ← get
  exportLoop xdr (stream.length + 1) { s with exports := none, prev := none, prevGroup := none }

end Decode

/-- An export as the protocol has it. -/
structure Export where
  dir : Bytes
  groups : List Bytes
  dir_short : dir.length ≤ mntPathLen
  groups_short : ∀ name ∈ groups, name.length ≤ mntNamLen

def encodeGroups : List Bytes → Bytes
  | [] => encodeBool false
  | name :: names => encodeBool true ++ (encodeString name ++ encodeGroups names)

def encodeExports : List Export → Bytes
  | [] => encodeBool false
  | e :: es =>
      encodeBool true ++ (encodeString e.dir ++ encodeGroups e.groups ++ encodeExports es)

/-- From the pointer on there is a list of groups with these names. -/
def HasGroups (groupNodes : NodeHeap (Option Bytes)) (pointer : Option Nat)
    (names : List Bytes) : Prop :=
  ∃ nodes, Chain groupNodes pointer nodes ∧ nodes.map Prod.snd = names.map some

/-- The node is that of the export, with its own groups. -/
def IsExport (groupNodes : NodeHeap (Option Bytes)) (entry : Nat × ExportNode) (e : Export) :
    Prop :=
  entry.2.exDir = some e.dir ∧ HasGroups groupNodes entry.2.exGroups e.groups

/-- The list of the exports that was decoded. -/
def HasExports (s : ExportsState) (es : List Export) : Prop :=
  ∃ nodes, Chain s.exportNodes s.exports nodes ∧
    List.Forall₂ (IsExport s.groupNodes) nodes es

/-- While the groups of the export at `node` are read: it has those read so far, in
nodes that were not there in front of the loop, and nothing else was touched. -/
structure GroupsRead (start s : ExportsState) (node : Nat) (dir : Bytes)
    (nodes : List (Nat × Option Bytes)) (pointer : Option Nat) : Prop where
  own : s.exportNodes.load node =
    some { value := { exDir := some dir, exGroups := pointer }, next := none }
  others : ∀ address ≠ node, s.exportNodes.load address = start.exportNodes.load address
  kept : ∀ address < start.groupNodes.length,
    s.groupNodes.load address = start.groupNodes.load address
  grown : start.groupNodes.length ≤ s.groupNodes.length
  chain : Chain s.groupNodes pointer nodes
  fresh : ∀ entry ∈ nodes, start.groupNodes.length ≤ entry.1
  last : ∀ entry ∈ nodes.getLast?, s.prevGroup = some entry.1
  exports : s.exports = start.exports
  prev : s.prev = start.prev

theorem linkGroup_first {node group : Nat} {s : ExportsState} {dir : Option Bytes}
    (hOwn : s.exportNodes.load node =
      some { value := { exDir := dir, exGroups := none }, next := none }) :
    linkGroup node group s = some { s with
      exportNodes := s.exportNodes.set node
        (some { value := { exDir := dir, exGroups := some group }, next := none })
      prevGroup := some group } := by
  simp only [linkGroup, hOwn, NodeHeap.modify_eq hOwn, Option.bind_eq_bind, Option.bind_some]

theorem linkGroup_next {node group pointer prevGroup : Nat} {s : ExportsState}
    {dir name : Option Bytes} {next : Option Nat}
    (hOwn : s.exportNodes.load node =
      some { value := { exDir := dir, exGroups := some pointer }, next := next })
    (hLast : s.prevGroup = some prevGroup)
    (hPrev : s.groupNodes.load prevGroup = some { value := name, next := none }) :
    linkGroup node group s = some { s with
      groupNodes := s.groupNodes.set prevGroup (some { value := name, next := some group })
      prevGroup := some group } := by
  simp only [linkGroup, hOwn, hLast, NodeHeap.modify_eq hPrev, Option.bind_eq_bind,
    Option.bind_some]

section Groups

variable {start s : ExportsState} {node : Nat} {dir : Bytes}

/-- The first group of an export starts a list, wherever `prev_group` points to. -/
theorem GroupsRead.first {pointer : Option Nat} (h : GroupsRead start s node dir [] pointer)
    (name : Bytes) :
    ∃ s', linkGroup node s.groupNodes.length
        { s with groupNodes := (s.groupNodes.alloc { value := some name, next := none }).2 } =
          some s' ∧
      GroupsRead start s' node dir [(s.groupNodes.length, some name)]
        (some s.groupNodes.length) := by
  obtain rfl := h.chain.pointer_eq_none_iff.mpr rfl
  have hGrown : s.groupNodes.length ≤
      (s.groupNodes.alloc { value := some name, next := none }).2.length := by
    simp [NodeHeap.alloc]
  refine ⟨_, linkGroup_first h.own, ?_⟩
  constructor
  · exact (NodeHeap.load_set _).trans (if_pos ⟨rfl, NodeHeap.lt_length_of_load h.own⟩)
  · intro address hOther
    rw [← h.others address hOther]
    exact (NodeHeap.load_set _).trans (if_neg fun hSame => hOther hSame.1)
  · intro address hInside
    rw [← h.kept address hInside]
    exact NodeHeap.load_alloc_of_lt (Nat.lt_of_lt_of_le hInside h.grown) _
  · exact Nat.le_trans h.grown hGrown
  · exact Chain.node (NodeHeap.load_alloc_self _) Chain.null
  · intro entry hMem
    rw [List.mem_singleton.mp hMem]
    exact h.grown
  · intro entry hEntry
    have hSame : (s.groupNodes.length, some name) = entry := by simpa using hEntry
    rw [← hSame]
  · exact h.exports
  · exact h.prev

/-- A further one is linked behind the last one of the same export. -/
theorem GroupsRead.next {pointer : Option Nat} {front : List (Nat × Option Bytes)}
    {last : Nat × Option Bytes} (h : GroupsRead start s node dir (front ++ [last]) pointer)
    (name : Bytes) :
    ∃ s', linkGroup node s.groupNodes.length
        { s with groupNodes := (s.groupNodes.alloc { value := some name, next := none }).2 } =
          some s' ∧
      GroupsRead start s' node dir (front ++ [last, (s.groupNodes.length, some name)])
        pointer := by
  have hKept : ∀ address < s.groupNodes.length,
      (s.groupNodes.alloc { value := some name, next := none }).2.load address =
        s.groupNodes.load address := fun _ hInside => NodeHeap.load_alloc_of_lt hInside _
  have hGrown : s.groupNodes.length ≤
      (s.groupNodes.alloc { value := some name, next := none }).2.length := by
    simp [NodeHeap.alloc]
  have hPointer : pointer ≠ none := by
    rw [Ne, h.chain.pointer_eq_none_iff]
    simp
  obtain ⟨first, rfl⟩ := Option.ne_none_iff_exists'.mp hPointer
  have hChain := h.chain.grow hKept
  have hNew : s.groupNodes.length ∉ (front ++ [last]).map Prod.fst := fun hMem =>
    Nat.lt_irrefl _ (h.chain.lt_length hMem)
  have hLast : s.prevGroup = some last.1 := h.last last (by simp)
  have hFresh : start.groupNodes.length ≤ last.1 := h.fresh last (by simp)
  refine ⟨_, linkGroup_next h.own hLast hChain.load_last, ?_⟩
  constructor
  · exact h.own
  · exact h.others
  · intro address hInside
    rw [← h.kept address hInside, ← hKept address (Nat.lt_of_lt_of_le hInside h.grown)]
    exact (NodeHeap.load_set _).trans (if_neg fun hSame => by omega)
  · rw [List.length_set]
    exact Nat.le_trans h.grown hGrown
  · exact hChain.link (NodeHeap.load_alloc_self _) hNew
  · intro entry hMem
    rcases List.mem_append.mp hMem with hFront | hBack
    · exact h.fresh entry (List.mem_append_left _ hFront)
    · rcases List.mem_cons.mp hBack with rfl | hBack
      · exact hFresh
      · rw [List.mem_singleton.mp hBack]
        exact h.grown
  · intro entry hEntry
    have hSame : (s.groupNodes.length, some name) = entry := by simpa using hEntry
    rw [← hSame]
  · exact h.exports
  · exact h.prev

/-- One more group, behind the others. -/
theorem GroupsRead.link {pointer : Option Nat} {nodes : List (Nat × Option Bytes)}
    (h : GroupsRead start s node dir nodes pointer) (name : Bytes) :
    ∃ s' pointer', linkGroup node s.groupNodes.length
        { s with groupNodes := (s.groupNodes.alloc { value := some name, next := none }).2 } =
          some s' ∧
      GroupsRead start s' node dir (nodes ++ [(s.groupNodes.length, some name)]) pointer' := by
  rcases nodes.eq_nil_or_concat with rfl | ⟨front, last, rfl⟩
  · obtain ⟨s', hLink, hRead⟩ := h.first name
    exact ⟨s', _, hLink, hRead⟩
  · rw [List.concat_eq_append] at h ⊢
    obtain ⟨s', hLink, hRead⟩ := h.next name
    rw [List.append_assoc]
    exact ⟨s', _, hLink, hRead⟩

end Groups

/-- In front of each round of the outer loop: the exports read so far are in the list,
and `prev` points to the last one. -/
structure ExportsRead (s : ExportsState) (nodes : List (Nat × ExportNode))
    (done : List Export) : Prop where
  chain : Chain s.exportNodes s.exports nodes
  contents : List.Forall₂ (IsExport s.groupNodes) nodes done
  last : ∀ entry ∈ nodes.getLast?, s.prev = some entry.1

theorem IsExport.grow {groupNodes groupNodes' : NodeHeap (Option Bytes)}
    {entry : Nat × ExportNode} {e : Export} (h : IsExport groupNodes entry e)
    (hKept : ∀ address < groupNodes.length, groupNodes'.load address = groupNodes.load address) :
    IsExport groupNodes' entry e := by
  obtain ⟨hDir, nodes, hChain, hNames⟩ := h
  exact ⟨hDir, nodes, hChain.grow hKept, hNames⟩

theorem linkExport_first {node : Nat} {s : ExportsState} (hNone : s.exports = none) :
    linkExport node s = some { s with exports := some node, prev := some node } := by
  rw [linkExport, hNone]

theorem linkExport_next {node pointer prev : Nat} {s : ExportsState} {value : ExportNode}
    (hExports : s.exports = some pointer) (hLast : s.prev = some prev)
    (hPrev : s.exportNodes.load prev = some { value := value, next := none }) :
    linkExport node s = some { s with
      exportNodes := s.exportNodes.set prev (some { value := value, next := some node })
      prev := some node } := by
  simp only [linkExport, hExports, hLast, NodeHeap.modify_eq hPrev, Option.bind_eq_bind,
    Option.bind_some]

section Exports

variable {s s' : ExportsState} {nodes : List (Nat × ExportNode)} {done : List Export}
  {e : Export} {pointer : Option Nat} {groups : List (Nat × Option Bytes)}

/-- The groups of a new export: those of the other exports stay as they are. -/
theorem GroupsRead.contents
    (hRead : GroupsRead { s with exportNodes := (s.exportNodes.alloc
      { value := { exDir := some e.dir, exGroups := none }, next := none }).2 } s'
      s.exportNodes.length e.dir groups pointer)
    (hGroups : groups.map Prod.snd = e.groups.map some)
    (h : List.Forall₂ (IsExport s.groupNodes) nodes done) :
    List.Forall₂ (IsExport s'.groupNodes)
      (nodes ++ [(s.exportNodes.length, { exDir := some e.dir, exGroups := pointer })])
      (done ++ [e]) := by
  apply List.rel_append
  · exact h.imp fun _ _ hExport => hExport.grow hRead.kept
  · exact List.Forall₂.cons ⟨rfl, groups, hRead.chain, hGroups⟩ List.Forall₂.nil

/-- The list goes on with the new export, and those before keep their groups. -/
theorem ExportsRead.link (h : ExportsRead s nodes done)
    (hRead : GroupsRead { s with exportNodes := (s.exportNodes.alloc
      { value := { exDir := some e.dir, exGroups := none }, next := none }).2 } s'
      s.exportNodes.length e.dir groups pointer)
    (hGroups : groups.map Prod.snd = e.groups.map some) :
    ∃ s'', linkExport s.exportNodes.length s' = some s'' ∧
      ExportsRead s'' (nodes ++ [(s.exportNodes.length,
        { exDir := some e.dir, exGroups := pointer })]) (done ++ [e]) := by
  have hContents := hRead.contents hGroups h.contents
  have hExports : s'.exports = s.exports := hRead.exports
  rcases nodes.eq_nil_or_concat with rfl | ⟨front, last, rfl⟩
  · have hNone : s'.exports = none := hExports.trans (h.chain.pointer_eq_none_iff.mpr rfl)
    refine ⟨_, linkExport_first hNone, Chain.node hRead.own Chain.null, hContents, ?_⟩
    intro entry hEntry
    rw [← Option.some.inj hEntry]
    rfl
  · have hKept : ∀ address < s.exportNodes.length,
        s'.exportNodes.load address = s.exportNodes.load address := by
      intro address hInside
      rw [hRead.others address (Nat.ne_of_lt hInside)]
      exact NodeHeap.load_alloc_of_lt hInside _
    rw [List.concat_eq_append] at h hContents ⊢
    have hChain := h.chain.grow hKept
    have hSome : s'.exports ≠ none := by
      rw [hExports, Ne, h.chain.pointer_eq_none_iff]
      simp
    obtain ⟨first, hFirst⟩ := Option.ne_none_iff_exists'.mp hSome
    have hPrev : s'.prev = some last.1 := hRead.prev.trans (h.last last (by simp))
    have hNew : s.exportNodes.length ∉ (front ++ [last]).map Prod.fst := fun hMem =>
      Nat.lt_irrefl _ (h.chain.lt_length hMem)
    refine ⟨_, linkExport_next hFirst hPrev hChain.load_last, ?_, hContents, ?_⟩
    · show Chain _ s'.exports _
      rw [hExports, List.append_assoc]
      exact hChain.link hRead.own hNew
    · intro entry hEntry
      have hSame :
          (s.exportNodes.length, { exDir := some e.dir, exGroups := pointer }) = entry := by
        simpa using hEntry
      rw [← hSame]

end Exports

section Run

variable (xdr : Library) {bound : Nat}

theorem xdrBool_decodes (b : Bool) :
    Decodes bound Stop.returnFalse (xdrBool xdr) (encodeBool b) fun more => more = b := by
  constructor
  · intro rest _
    refine ⟨b, ?_, rfl⟩
    rw [xdrBool, xdr.bool_reads]
  · intro front hPrefix hProper _
    rw [xdrBool, xdr.bool_cut b front hPrefix hProper]

theorem xdrString_decodes {maxsize : Nat} (hMax : maxsize < 2 ^ 32) {name : Bytes}
    (h : name.length ≤ maxsize) :
    Decodes bound Stop.returnFalse (xdrString xdr maxsize) (encodeString name)
      fun read => read = name := by
  constructor
  · intro rest _
    refine ⟨name, ?_, rfl⟩
    rw [xdrString, xdr.string_reads maxsize name rest hMax h]
  · intro front hPrefix hProper _
    rw [xdrString, xdr.string_cut maxsize name front hMax h hPrefix hProper]

theorem readGroup_decodes {start s : ExportsState} {node : Nat} {dir : Bytes}
    {nodes : List (Nat × Option Bytes)} {pointer : Option Nat}
    (h : GroupsRead start s node dir nodes pointer) {name : Bytes}
    (hName : name.length ≤ mntNamLen) :
    Decodes bound Stop.returnFalse (readGroup xdr node s) (encodeString name) fun s' =>
      ∃ group pointer', GroupsRead start s' node dir (nodes ++ [(group, some name)]) pointer' := by
  obtain ⟨s', pointer', hLink, hRead⟩ := h.link name
  rw [readGroup, ← List.append_nil (encodeString name)]
  apply (xdrString_decodes xdr (by decide) hName).bind (Nat.le_add_right bound _)
  rintro read rfl
  apply Decodes.lift (congrArg access (NodeHeap.modify_alloc _))
  rw [← bind_pure (liftM _ : XdrM ExportsState)]
  apply Decodes.lift (congrArg access hLink)
  exact Decodes.pure ⟨_, pointer', hRead⟩

/-- The inner loop reads the groups of one export, up to the end of their list. -/
theorem groupLoop_decodes {start s : ExportsState} {node : Nat} {dir : Bytes}
    {nodes : List (Nat × Option Bytes)} {pointer : Option Nat}
    (h : GroupsRead start s node dir nodes pointer) {names : List Bytes}
    (hNames : ∀ name ∈ names, name.length ≤ mntNamLen) :
    Decodes bound Stop.returnFalse (groupLoop xdr node bound s) (encodeGroups names) fun s' =>
      ∃ more pointer', GroupsRead start s' node dir (nodes ++ more) pointer' ∧
        more.map Prod.snd = names.map some := by
  induction names generalizing bound s nodes pointer with
  | nil =>
      cases bound with
      | zero => exact Decodes.zero
      | succ bound =>
          rw [groupLoop, encodeGroups, ← List.append_nil (encodeBool false)]
          apply (xdrBool_decodes xdr false).bind (Nat.le_add_right _ _)
          rintro more rfl
          exact Decodes.pure ⟨[], pointer, (List.append_nil nodes).symm ▸ h, rfl⟩
  | cons name names ih =>
      rw [List.forall_mem_cons] at hNames
      cases bound with
      | zero => exact Decodes.zero
      | succ bound =>
          rw [groupLoop, encodeGroups]
          apply (xdrBool_decodes xdr true).bind (Nat.add_le_add_left (by decide) bound)
          rintro more rfl
          apply (readGroup_decodes xdr h hNames.1).bind (Nat.le_add_right _ _)
          rintro s' ⟨group, pointer', hRead⟩
          apply (ih hRead hNames.2).weaken (Nat.le_refl _)
          rintro s'' ⟨more, pointer'', hRest, hValues⟩
          refine ⟨(group, some name) :: more, pointer'', ?_, congrArg (some name :: ·) hValues⟩
          rwa [List.append_assoc] at hRest

theorem readGroups_decodes {s : ExportsState} {node : Nat} {dir : Bytes}
    (h : GroupsRead s s node dir [] none) {names : List Bytes}
    (hNames : ∀ name ∈ names, name.length ≤ mntNamLen) :
    Decodes bound Stop.returnFalse (readGroups xdr node s) (encodeGroups names) fun s' =>
      ∃ groups pointer, GroupsRead s s' node dir groups pointer ∧
        groups.map Prod.snd = names.map some :=
  Decodes.sized fun _ => groupLoop_decodes xdr h hNames

theorem readExport_decodes {s : ExportsState} {nodes : List (Nat × ExportNode)}
    {done : List Export} (h : ExportsRead s nodes done) (e : Export) :
    Decodes bound Stop.returnFalse (readExport xdr s)
      (encodeString e.dir ++ encodeGroups e.groups)
      fun s' => ∃ entry, ExportsRead s' (nodes ++ [entry]) (done ++ [e]) := by
  rw [readExport]
  apply (xdrString_decodes xdr (by decide) e.dir_short).bind (Nat.le_add_right bound _)
  rintro read rfl
  apply Decodes.lift (congrArg access (NodeHeap.modify_alloc _))
  rw [← List.append_nil (encodeGroups e.groups)]
  have hStart : GroupsRead { s with exportNodes := (s.exportNodes.alloc
      { value := { exDir := some e.dir, exGroups := none }, next := none }).2 }
      { s with exportNodes := (s.exportNodes.alloc
        { value := { exDir := some e.dir, exGroups := none }, next := none }).2 }
      s.exportNodes.length e.dir [] none :=
    { own := NodeHeap.load_alloc_self _
      others := fun _ _ => rfl
      kept := fun _ _ => rfl
      grown := Nat.le_refl _
      chain := Chain.null
      fresh := fun _ hMem => nomatch hMem
      last := fun _ hMem => nomatch hMem
      exports := rfl
      prev := rfl }
  apply (readGroups_decodes xdr hStart e.groups_short).bind (Nat.le_add_right bound _)
  rintro s' ⟨groups, pointer, hRead, hGroups⟩
  obtain ⟨s'', hLink, hNext⟩ := h.link hRead hGroups
  rw [← bind_pure (liftM _ : XdrM ExportsState)]
  apply Decodes.lift (congrArg access hLink)
  exact Decodes.pure ⟨_, hNext⟩

theorem exportLoop_decodes {s : ExportsState} {nodes : List (Nat × ExportNode)}
    {done : List Export} (h : ExportsRead s nodes done) (es : List Export) :
    Decodes bound Stop.returnFalse (exportLoop xdr bound s) (encodeExports es)
      fun s' => HasExports s' (done ++ es) := by
  induction es generalizing bound s nodes done with
  | nil =>
      cases bound with
      | zero => exact Decodes.zero
      | succ bound =>
          rw [exportLoop, encodeExports, ← List.append_nil (encodeBool false)]
          apply (xdrBool_decodes xdr false).bind (Nat.le_add_right _ _)
          rintro more rfl
          rw [List.append_nil]
          exact Decodes.pure ⟨nodes, h.chain, h.contents⟩
  | cons e es ih =>
      cases bound with
      | zero => exact Decodes.zero
      | succ bound =>
          rw [exportLoop, encodeExports]
          apply (xdrBool_decodes xdr true).bind (Nat.add_le_add_left (by decide) bound)
          rintro more rfl
          apply (readExport_decodes xdr h e).bind (Nat.le_add_right _ _)
          rintro s' ⟨entry, hRead⟩
          rw [List.append_cons]
          exact ih hRead

/-- The encoding of a list of exports is read to its end and yields these exports, each
with its own groups; of a part of it nothing comes but FALSE. -/
theorem mpXdrExports_decodes (s : ExportsState) (es : List Export) :
    (∀ rest, ∃ s', (mpXdrExports xdr s).run (encodeExports es ++ rest) = .ok (s', rest) ∧
        HasExports s' es) ∧
      ∀ front, front <+: encodeExports es → front ≠ encodeExports es →
        (mpXdrExports xdr s).run front = .error .returnFalse := by
  have hStart : ExportsRead { s with exports := none, prev := none, prevGroup := none } [] [] :=
    { chain := Chain.null
      contents := List.Forall₂.nil
      last := fun _ hMem => nomatch hMem }
  have hLoop (bound : Nat) : Decodes bound Stop.returnFalse (mpXdrExports xdr s)
      (encodeExports es) fun s' => HasExports s' es :=
    Decodes.sized fun _ => exportLoop_decodes xdr hStart es
  constructor
  · intro rest
    exact (hLoop _).whole rest (Nat.lt_succ_self _)
  · intro front hPrefix hProper
    exact (hLoop _).cut front hPrefix hProper (Nat.lt_succ_self _)

end Run

/-- Before anything was allocated. -/
def noNodes : ExportsState :=
  { exportNodes := [], groupNodes := [], exports := none, prev := none, prevGroup := none }

/-- `/a` for the groups `b` and `c`, `/d` for everyone. -/
def groupsOfFirst : List Export :=
  [{ dir := [47, 97], groups := [[98], [99]], dir_short := by decide, groups_short := by decide },
    { dir := [47, 100], groups := [], dir_short := by decide, groups_short := by decide }]

theorem mpXdrExports_decodes_groups :
    ∃ s', (mpXdrExports standard noNodes).run (encodeExports groupsOfFirst ++ [7]) =
        .ok (s', [7]) ∧ HasExports s' groupsOfFirst :=
  (mpXdrExports_decodes standard noNodes groupsOfFirst).1 [7]

end MonitoringPlug.Rpc
