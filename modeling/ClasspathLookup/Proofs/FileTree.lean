import ClasspathLookup.Disk.Basic
import Mathlib.Data.List.Basic
import Mathlib.Data.List.Induction

/-!
# Trees on the disk

A folder and all that is reached from it by the names of entries is a tree of files and folders. A
path below the folder whose segments are plain never leaves that tree, so reading and listing such a
path can be told from what stands in the tree. The disk is finite, and therefore every folder of the
tree has a file or an empty folder at some end of it.
-/

namespace ClasspathLookup

/-- A segment that is one name and no step. -/
structure IsPlain (segment : String) : Prop where
  nonempty : segment ≠ ""
  slashFree : '/' ∉ segment.toList
  not_here : segment ≠ "."
  not_up : segment ≠ ".."

/-- Plain names lead from a folder to something below it and nowhere else. -/
abbrev AllPlain (names : List String) : Prop :=
  ∀ name ∈ names, IsPlain name

theorem allPlain_nil : AllPlain [] :=
  List.forall_mem_nil IsPlain

theorem allPlain_concat_iff {names : List String} {name : String} :
    AllPlain (names ++ [name]) ↔ AllPlain names ∧ IsPlain name := by
  rw [AllPlain, List.forall_mem_append, List.forall_mem_singleton]

theorem isPlain_of_isEntryName {name : String} (h : isEntryName name = true) : IsPlain name := by
  simp only [isEntryName, Path.isStep, Bool.and_eq_true, decide_eq_true_eq, ne_eq,
    Bool.not_eq_true', List.contains_eq_mem, decide_eq_false_iff_not] at h
  obtain ⟨⟨⟨⟨⟨hempty, hhere⟩, hup⟩, hslash⟩, -⟩, -⟩ := h
  exact ⟨hempty, hslash, hhere, hup⟩

/-- Plain segments are taken below a folder as they are. -/
theorem Path.below_join (root : Path) {names : List String} (h : AllPlain names) :
    root.below (Slash.join names) = ⟨root.steps ++ names, names.isEmpty && root.asFolder⟩ := by
  have hsteps : names.filter Path.isStep = names := by
    rw [List.filter_eq_self]
    intro name hname
    simp [Path.isStep, (h name hname).nonempty, (h name hname).not_here]
  have hsegments : (Slash.split (Slash.join names)).filter (· ≠ "") = names := by
    cases names with
    | nil => rfl
    | cons first rest =>
      rw [Slash.split_join (List.cons_ne_nil _ _) fun name hname => (h name hname).slashFree,
        List.filter_eq_self]
      intro name hname
      simp [(h name hname).nonempty]
  unfold below
  dsimp only
  rw [hsegments, hsteps]
  cases hlast : names.getLast? with
  | none =>
    rw [List.getLast?_eq_none_iff] at hlast
    simp [hlast]
  | some last =>
    have hmem : last ∈ names := List.mem_of_getLast? hlast
    have hstep : Path.isStep last = true := by
      simp [Path.isStep, (h last hmem).nonempty, (h last hmem).not_here]
    have hne : names ≠ [] := List.ne_nil_of_mem hmem
    simp [hstep, hne]

theorem Path.below_empty (root : Path) : root.below "" = root := by
  have hbelow := root.below_join allPlain_nil
  rwa [List.append_nil, List.isEmpty_nil, Bool.true_and] at hbelow

namespace Position

variable {folder position : Position} {name : String}

theorem isEntryName_of_names (h : position.names = folder.names ++ [name]) :
    isEntryName name = true := by
  have hvalid := position.valid
  rw [h, List.all_append, Bool.and_eq_true] at hvalid
  simpa using hvalid.2

theorem child?_eq_some_iff :
    folder.child? name = some position ↔ position.names = folder.names ++ [name] := by
  constructor
  · exact names_of_child?
  · intro h
    unfold child?
    rw [dif_pos (isEntryName_of_names h)]
    congr
    exact h.symm

/-- What is listed under a name is what the name leads to. -/
theorem nameIn?_eq_some_iff : folder.nameIn? position = some name ↔
    folder.child? name = some position := by
  rw [child?_eq_some_iff]
  unfold nameIn?
  constructor
  · intro h
    split at h
    · rename_i last hlast
      simp only [Option.ite_none_right_eq_some, Option.some.injEq] at h
      obtain ⟨rfl, rfl⟩ := h
      exact (List.dropLast_append_getLast? _ hlast).symm
    · simp at h
  · intro h
    obtain ⟨names, valid⟩ := position
    obtain rfl : names = folder.names ++ [name] := h
    simp [parent]

end Position

/-- The data of a file. -/
def Node.bytes? : Node → Option ByteArray
  | .folder => none
  | .file content => some content.bytes

namespace Disk

variable {disk : Disk} {root : Path} {names : List String} {name : String} {node : Node}
  {place next : Place}

/-- What stands below a folder at some names, each of which has to be one that an entry can have. -/
def nodeBelow? (disk : Disk) (root : Path) (names : List String) : Option Node :=
  if names.all isEntryName then (disk.walk? (root.steps ++ names)).bind disk.node? else none

/-- A folder of the tree in which nothing stands. -/
def IsEmptyFolder (disk : Disk) (root : Path) (names : List String) : Prop :=
  disk.nodeBelow? root names = some .folder ∧
    ∀ name, disk.nodeBelow? root (names ++ [name]) = none

theorem isFolderAt_iff : disk.isFolderAt place = true ↔ disk.node? place = some .folder := by
  unfold isFolderAt
  cases disk.node? place with
  | none => simp
  | some node => cases node <;> simp [Node.isFolder]

theorem walk?_concat (disk : Disk) (steps : List String) (name : String) :
    disk.walk? (steps ++ [name]) = (disk.walk? steps).bind (disk.enter? · name) := by
  unfold walk?
  rw [List.foldlM_append]
  cases steps.foldlM disk.enter? (.at .root) <;> simp [List.foldlM]

/-- A plain name leads only from a folder to an entry of it. -/
theorem enter?_eq_some_iff (h : IsPlain name) : disk.enter? place name = some next ↔
    ∃ folder position node, place = .at folder ∧ disk.nodes.find? folder = some .folder ∧
      folder.child? name = some position ∧ next = .at position ∧
      disk.nodes.find? position = some node := by
  unfold enter?
  rw [if_neg h.not_up, Option.ite_none_right_eq_some, isFolderAt_iff]
  cases place with
  | above => simp [Place.child?]
  | «at» folder =>
    simp only [node?, Place.child?, Option.filter_eq_some_iff, Option.map_eq_some_iff,
      Option.isSome_iff_exists, Place.at.injEq]
    constructor
    · rintro ⟨hfolder, ⟨position, hchild, rfl⟩, node, hnode⟩
      exact ⟨folder, position, node, rfl, hfolder, hchild, rfl, hnode⟩
    · rintro ⟨_, position, node, rfl, hfolder, hchild, rfl, hnode⟩
      exact ⟨hfolder, ⟨position, hchild, rfl⟩, node, hnode⟩

/-- A walk by plain names takes only names that an entry can have. -/
theorem all_isEntryName_of_walk? (hplain : AllPlain names)
    (h : disk.walk? (root.steps ++ names) = some place) : names.all isEntryName = true := by
  induction names using List.reverseRecOn generalizing place with
  | nil => rfl
  | append_singleton names name ih =>
    obtain ⟨hnames, hname⟩ := allPlain_concat_iff.1 hplain
    rw [← List.append_assoc, walk?_concat, Option.bind_eq_some_iff] at h
    obtain ⟨parent, hparent, henter⟩ := h
    obtain ⟨folder, position, _, -, -, hchild, -, -⟩ := (enter?_eq_some_iff hname).1 henter
    have hentry := Position.isEntryName_of_names (Position.child?_eq_some_iff.1 hchild)
    rw [List.all_append, ih hnames hparent]
    simp [hentry]

/-- For plain names it does not matter which of them an entry could have. -/
theorem nodeBelow?_of_plain (hplain : AllPlain names) :
    disk.nodeBelow? root names = (disk.walk? (root.steps ++ names)).bind disk.node? := by
  unfold nodeBelow?
  split
  · rfl
  · rename_i hentry
    cases hwalk : disk.walk? (root.steps ++ names) with
    | none => rfl
    | some place => exact absurd (all_isEntryName_of_walk? hplain hwalk) hentry

theorem allPlain_of_nodeBelow? (h : disk.nodeBelow? root names = some node) :
    AllPlain names := by
  unfold nodeBelow? at h
  rw [Option.ite_none_right_eq_some, List.all_eq_true] at h
  intro name hname
  exact isPlain_of_isEntryName (h.1 name hname)

/-- One more name leads from a folder of the tree to an entry of it. -/
theorem nodeBelow?_concat_eq_some_iff : disk.nodeBelow? root (names ++ [name]) = some node ↔
    ∃ folder position, disk.nodeBelow? root names = some .folder ∧
      disk.walk? (root.steps ++ names) = some (.at folder) ∧
      folder.child? name = some position ∧ disk.nodes.find? position = some node := by
  constructor
  · intro h
    have hplain := allPlain_of_nodeBelow? h
    obtain ⟨hnames, hname⟩ := allPlain_concat_iff.1 hplain
    rw [nodeBelow?_of_plain hplain, ← List.append_assoc, walk?_concat] at h
    obtain ⟨next, hnext, hnode⟩ := Option.bind_eq_some_iff.1 h
    obtain ⟨parent, hparent, henter⟩ := Option.bind_eq_some_iff.1 hnext
    obtain ⟨folder, position, _, rfl, hfolder, hchild, rfl, -⟩ :=
      (enter?_eq_some_iff hname).1 henter
    refine ⟨folder, position, ?_, hparent, hchild, hnode⟩
    rw [nodeBelow?_of_plain hnames, hparent]
    exact hfolder
  · rintro ⟨folder, position, hbelow, hwalk, hchild, hnode⟩
    have hnames := allPlain_of_nodeBelow? hbelow
    have hname : IsPlain name := by
      apply isPlain_of_isEntryName
      exact Position.isEntryName_of_names (Position.child?_eq_some_iff.1 hchild)
    rw [nodeBelow?_of_plain hnames, hwalk] at hbelow
    rw [nodeBelow?_of_plain (allPlain_concat_iff.2 ⟨hnames, hname⟩), ← List.append_assoc,
      walk?_concat, hwalk, Option.bind_some,
      (enter?_eq_some_iff hname).2 ⟨folder, position, node, rfl, hbelow, hchild, rfl, hnode⟩]
    exact hnode

/-- Whatever has something below it is a folder. -/
theorem nodeBelow?_eq_folder {more : List String} (hmore : more ≠ [])
    (h : disk.nodeBelow? root (names ++ more) = some node) :
    disk.nodeBelow? root names = some .folder := by
  induction more using List.reverseRecOn generalizing node with
  | nil => exact absurd rfl hmore
  | append_singleton more last ih =>
    rw [← List.append_assoc] at h
    obtain ⟨_, _, hfolder, -⟩ := nodeBelow?_concat_eq_some_iff.1 h
    cases more with
    | nil => rwa [List.append_nil] at hfolder
    | cons first rest => exact ih (List.cons_ne_nil _ _) hfolder

theorem nodeBelow?_of_initial {initial : List String} (hinitial : initial <+: names)
    (h : disk.nodeBelow? root names = some .folder) :
    disk.nodeBelow? root initial = some .folder := by
  obtain ⟨more, rfl⟩ := hinitial
  by_cases hmore : more = []
  · rwa [hmore, List.append_nil] at h
  · exact nodeBelow?_eq_folder hmore h

/-- A walk below a folder ends at a position that ends in the names of the walk. -/
theorem isSuffix_of_walk? {position : Position} (hplain : AllPlain names)
    (h : disk.walk? (root.steps ++ names) = some (.at position)) : names <:+ position.names := by
  induction names using List.reverseRecOn generalizing position with
  | nil => exact List.nil_suffix
  | append_singleton names name ih =>
    obtain ⟨hnames, hname⟩ := allPlain_concat_iff.1 hplain
    rw [← List.append_assoc, walk?_concat, Option.bind_eq_some_iff] at h
    obtain ⟨parent, hparent, henter⟩ := h
    obtain ⟨folder, _, _, rfl, -, hchild, hat, -⟩ := (enter?_eq_some_iff hname).1 henter
    obtain rfl := Place.at.inj hat
    rw [Position.names_of_child? hchild]
    obtain ⟨start, hstart⟩ := ih hnames hparent
    exact ⟨start, by rw [← hstart, List.append_assoc]⟩

/-- Whatever stands below a folder stands at some position of the disk. -/
theorem exists_position (hne : names ≠ []) (h : disk.nodeBelow? root names = some node) :
    ∃ position ∈ disk.nodes.keys, names <:+ position.names := by
  have hplain := allPlain_of_nodeBelow? h
  obtain ⟨parents, name, rfl⟩ := (List.eq_nil_or_concat' names).resolve_left hne
  obtain ⟨folder, position, _, hwalk, hchild, hnode⟩ := nodeBelow?_concat_eq_some_iff.1 h
  refine ⟨position, Keyed.mem_keys_iff.2 ⟨node, hnode⟩, ?_⟩
  obtain ⟨start, hstart⟩ := isSuffix_of_walk? (allPlain_concat_iff.1 hplain).1 hwalk
  rw [Position.names_of_child? hchild]
  exact ⟨start, by rw [← hstart, List.append_assoc]⟩

/-- No position is deeper. -/
def depth (disk : Disk) : Nat :=
  (disk.nodes.keys.map fun position => position.names.length).max?.getD 0

theorem length_le_depth (h : disk.nodeBelow? root names = some node) :
    names.length ≤ disk.depth := by
  by_cases hne : names = []
  · rw [hne]
    exact Nat.zero_le _
  · obtain ⟨position, hkey, hsuffix⟩ := exists_position hne h
    have hdepth : position.names.length ≤ disk.depth :=
      List.le_max?_getD_of_mem (List.mem_map_of_mem hkey)
    exact Nat.le_trans hsuffix.length_le hdepth

/-- Every folder of the tree has a file or an empty folder at some end of it. -/
theorem exists_leaf (h : disk.nodeBelow? root names = some .folder) :
    ∃ more, (∃ content, disk.nodeBelow? root (names ++ more) = some (.file content)) ∨
      disk.IsEmptyFolder root (names ++ more) := by
  -- Below a folder as deep as the disk nothing stands; each step leaves one level less.
  obtain ⟨levels, hlevels⟩ : ∃ levels, disk.depth ≤ names.length + levels :=
    ⟨disk.depth, Nat.le_add_left _ _⟩
  induction levels generalizing names with
  | zero =>
    refine ⟨[], Or.inr ?_⟩
    rw [List.append_nil]
    refine ⟨h, fun name => ?_⟩
    cases hnext : disk.nodeBelow? root (names ++ [name]) with
    | none => rfl
    | some node =>
      have hle := length_le_depth hnext
      simp only [List.length_append, List.length_cons, List.length_nil] at hle
      omega
  | succ levels ih =>
    by_cases hempty : disk.IsEmptyFolder root names
    · exact ⟨[], Or.inr (by rwa [List.append_nil])⟩
    · obtain ⟨name, hname⟩ : ∃ name, disk.nodeBelow? root (names ++ [name]) ≠ none := by
        apply Classical.byContradiction
        intro hnone
        exact hempty ⟨h, fun name => Classical.byContradiction fun hne => hnone ⟨name, hne⟩⟩
      obtain ⟨node, hnode⟩ := Option.ne_none_iff_exists'.1 hname
      cases node with
      | file content => exact ⟨[name], Or.inl ⟨content, hnode⟩⟩
      | folder =>
        obtain ⟨more, hmore⟩ := ih hnode (by simp; omega)
        rw [List.append_assoc] at hmore
        exact ⟨[name] ++ more, hmore⟩

theorem isFolder_iff {path : Path} :
    disk.isFolder path = true ↔ ∃ place, disk.find? path = some (place, .folder) := by
  unfold isFolder
  cases disk.find? path with
  | none => simp
  | some found =>
    obtain ⟨place, node⟩ := found
    cases node <;> simp [Node.isFolder]

theorem find?_eq_some_iff {path : Path} : disk.find? path = some (place, node) ↔
    disk.walk? path.steps = some place ∧ disk.node? place = some node ∧
      (path.asFolder && node.isFile) = false := by
  simp only [find?, Option.bind_eq_bind, Option.bind_eq_some_iff, Option.ite_none_left_eq_some,
    Option.some.injEq, Prod.mk.injEq, Bool.not_eq_true]
  constructor
  · rintro ⟨place, hwalk, node, hnode, hkind, rfl, rfl⟩
    exact ⟨hwalk, hnode, hkind⟩
  · rintro ⟨hwalk, hnode, hkind⟩
    exact ⟨place, hwalk, node, hnode, hkind, rfl, rfl⟩

/-- A folder is found by its steps, whether or not the path asks for one. -/
theorem find?_eq_folder_iff {path : Path} : disk.find? path = some (place, .folder) ↔
    disk.walk? path.steps = some place ∧ disk.node? place = some .folder := by
  rw [find?_eq_some_iff]
  simp [Node.isFile, Node.isFolder]

theorem walk?_of_isFolder (h : disk.isFolder root = true) :
    ∃ place, disk.walk? root.steps = some place ∧ disk.node? place = some .folder := by
  obtain ⟨place, hfind⟩ := isFolder_iff.1 h
  exact ⟨place, find?_eq_folder_iff.1 hfind⟩

/-- A file is found by its steps, unless the path asks for a folder. -/
theorem file?_eq_some_iff {path : Path} {content : FileContent} :
    disk.file? path = some content ↔ path.asFolder = false ∧
      ∃ place, disk.walk? path.steps = some place ∧ disk.node? place = some (.file content) := by
  have hfile : disk.file? path = some content ↔
      ∃ place, disk.find? path = some (place, .file content) := by
    unfold file?
    split
    · rename_i found other hfind
      simp [hfind]
    · rename_i hnot
      simpa using fun place => hnot place content
  have hkind : (path.asFolder && (Node.file content).isFile) = path.asFolder := by
    simp [Node.isFile, Node.isFolder]
  simp only [hfile, find?_eq_some_iff, hkind]
  constructor
  · rintro ⟨place, hwalk, hnode, hasFolder⟩
    exact ⟨hasFolder, place, hwalk, hnode⟩
  · rintro ⟨hasFolder, place, hwalk, hnode⟩
    exact ⟨place, hwalk, hnode, hasFolder⟩

theorem nodup_names (disk : Disk) (path : Path) (wanted : Node → Bool) :
    (disk.names path wanted).Nodup := by
  unfold names
  split
  · rw [(Text.sorted_perm _).nodup_iff, List.Nodup, List.pairwise_filterMap]
    refine (List.pairwise_map.1 disk.nodes.nodup).imp ?_
    intro p q hne name hp other hq heq
    simp only [Option.ite_none_right_eq_some, Position.nameIn?_eq_some_iff] at hp hq
    subst heq
    exact hne (Option.some.inj (hp.2.symm.trans hq.2))
  · exact List.nodup_nil

theorem pairwise_names (disk : Disk) (path : Path) (wanted : Node → Bool) :
    (disk.names path wanted).Pairwise (· ≤ ·) := by
  unfold names
  split
  · exact Text.pairwise_sorted _
  · exact List.Pairwise.nil

section Paths

variable (hroot : disk.isFolder root = true) (hplain : AllPlain names)

include hroot hplain

/-- A plain path below a folder names what stands there in the tree. -/
theorem find?_below : disk.find? (root.below (Slash.join names)) =
    (disk.walk? (root.steps ++ names)).bind fun place =>
      (disk.node? place).map fun node => (place, node) := by
  rw [root.below_join hplain]
  unfold find?
  cases names with
  | nil =>
    obtain ⟨place, hwalk, hnode⟩ := walk?_of_isFolder hroot
    simp [hwalk, hnode, Node.isFile, Node.isFolder]
  | cons first rest =>
    cases disk.walk? (root.steps ++ first :: rest) with
    | none => rfl
    | some place => cases hnode : disk.node? place <;> simp [hnode]

theorem map_find?_below :
    (disk.find? (root.below (Slash.join names))).map Prod.snd = disk.nodeBelow? root names := by
  rw [find?_below hroot hplain, nodeBelow?_of_plain hplain, Option.map_bind]
  congr
  funext place
  cases h : disk.node? place <;> simp [h]

theorem isFolder_below : disk.isFolder (root.below (Slash.join names)) =
    decide (disk.nodeBelow? root names = some .folder) := by
  rw [← map_find?_below hroot hplain]
  unfold isFolder
  cases disk.find? (root.below (Slash.join names)) with
  | none => rfl
  | some found =>
    obtain ⟨place, node⟩ := found
    cases node <;> simp [Node.isFolder]

theorem read?_below : disk.read? (root.below (Slash.join names)) =
    (disk.nodeBelow? root names).bind Node.bytes? := by
  rw [← map_find?_below hroot hplain]
  unfold read? file?
  cases disk.find? (root.below (Slash.join names)) with
  | none => rfl
  | some found =>
    obtain ⟨place, node⟩ := found
    cases node <;> rfl

/-- What is listed below a folder is what stands there in the tree. -/
theorem mem_names_below {wanted : Node → Bool} :
    name ∈ disk.names (root.below (Slash.join names)) wanted ↔
      ∃ node, wanted node = true ∧ disk.nodeBelow? root (names ++ [name]) = some node := by
  unfold Disk.names
  constructor
  · intro h
    split at h
    · rename_i folder hfind
      simp only [Text.mem_sorted, List.mem_filterMap, Option.ite_none_right_eq_some,
        Position.nameIn?_eq_some_iff] at h
      obtain ⟨⟨position, node⟩, hmem, hwanted, hchild⟩ := h
      refine ⟨node, hwanted, nodeBelow?_concat_eq_some_iff.2
        ⟨folder, position, ?_, ?_, hchild, Keyed.find?_eq_some_iff.2 hmem⟩⟩
      · rw [← map_find?_below hroot hplain, hfind]
        rfl
      · rw [find?_below hroot hplain] at hfind
        obtain ⟨place, hwalk, hplace⟩ := Option.bind_eq_some_iff.1 hfind
        obtain ⟨_, -, hpair⟩ := Option.map_eq_some_iff.1 hplace
        rw [hwalk, (Prod.mk.inj hpair).1]
    · simp at h
  · rintro ⟨node, hwanted, h⟩
    obtain ⟨folder, position, hbelow, hwalk, hchild, hnode⟩ := nodeBelow?_concat_eq_some_iff.1 h
    have hfind : disk.find? (root.below (Slash.join names)) = some (.at folder, .folder) := by
      rw [find?_below hroot hplain, hwalk]
      rw [nodeBelow?_of_plain hplain, hwalk, Option.bind_some] at hbelow
      simp [hbelow]
    rw [hfind]
    simp only [Text.mem_sorted, List.mem_filterMap, Option.ite_none_right_eq_some,
      Position.nameIn?_eq_some_iff]
    exact ⟨(position, node), Keyed.find?_eq_some_iff.1 hnode, hwanted, hchild⟩

end Paths

theorem nodeBelow?_nil (h : disk.isFolder root = true) :
    disk.nodeBelow? root [] = some .folder := by
  have hroot := isFolder_below h allPlain_nil
  rw [Slash.join, root.below_empty, h] at hroot
  exact of_decide_eq_true hroot.symm

end Disk

end ClasspathLookup
