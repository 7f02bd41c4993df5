import Mathlib.Data.List.Basic
import Mathlib.Logic.Function.Basic
import Mathlib.Tactic.SplitIfs

/-!
# Directories and paths

The files of a POSIX system as one process sees them, how a path is resolved, and what
`mkdir` does.  Names, links and directories have no limit on their size or number; a
directory in which no entry can be made, for whatever reason, is one without write
permission.

A call of `mkdir` either leaves the files alone or adds one directory where there was
nothing, so it is one step of `GrowsBy`, and a path that led to a directory before still
does (`IsDirectory.grows`).
-/

namespace FileSystems

/-- A name or a path. -/
abbrev Text := List (BitVec 8)

/-- A place among the files: the names on the way from it to the root. -/
abbrev Location := List Text

def slash : BitVec 8 := 0x2F

/-- The name of a directory in itself. -/
def dot : Text := [0x2E]

/-- The name of the parent of a directory in it. -/
def dotdot : Text := [0x2E, 0x2E]

/-- What the process may do with a directory. -/
structure Permissions where
  search : Bool
  write : Bool
  deriving DecidableEq

/-- Entries can be made in the directory. -/
def Permissions.Usable (granted : Permissions) : Prop :=
  granted.search = true ∧ granted.write = true

/-- What is at a place; a link leads to another place. -/
inductive Node
  | directory (granted : Permissions)
  | file
  | link (target : Location)
  deriving DecidableEq

/-- Where a node at a place leads. -/
def Node.leads (location : Location) : Node → Location
  | .link target => target
  | _ => location

/-- Whether entries can be made at a node. -/
def Node.takesEntries : Node → Bool
  | .directory granted => granted.search && granted.write
  | _ => false

inductive Errno
  | enoent
  | enotdir
  | eacces
  | eexist
  deriving DecidableEq, Repr

/-- The files, and the current directory of the process.  The root is a directory, and what has
an entry is one. -/
structure FileSystem where
  node : Location → Option Node
  current : Location
  root_directory : ∃ granted, node [] = some (.directory granted)
  parent_directory : ∀ name location, node (name :: location) ≠ none →
    ∃ granted, node location = some (.directory granted)

namespace FileSystem

/-! ## Paths -/

/-- The components of a path, the first one after the bytes of `name`. -/
def componentsFrom (name : Text) : Text → List Text
  | [] => if name = [] then [] else [name]
  | byte :: path =>
      if byte = slash then
        if name = [] then componentsFrom [] path else name :: componentsFrom [] path
      else componentsFrom (name ++ [byte]) path

/-- The components of a path; slashes that follow each other are one. -/
def components (path : Text) : List Text := componentsFrom [] path

variable (self : FileSystem)

/-- Where the resolution of a path starts. -/
def start (path : Text) : Location := if path.head? = some slash then [] else self.current

/-- A name is looked up in a directory that may be searched only. -/
def enter (location : Location) : Except Errno Unit :=
  match self.node location with
  | none => .error .enoent
  | some (.directory granted) => if granted.search then .ok () else .error .eacces
  | some _ => .error .enotdir

/-- Where a name in a directory leads. -/
def follow (location : Location) (name : Text) : Except Errno Location :=
  if name = dot then .ok location
  else if name = dotdot then .ok location.tail
  else
    match self.node (name :: location) with
    | none => .error .enoent
    | some node => .ok (node.leads (name :: location))

/-- Where components lead from a place. -/
def walk : Location → List Text → Except Errno Location
  | location, [] => .ok location
  | location, name :: names => do
      self.enter location
      let next ← self.follow location name
      walk next names

/-- There is a directory at a place. -/
def DirectoryAt (location : Location) : Prop :=
  ∃ granted, self.node location = some (.directory granted)

/-- A path names a directory. -/
def IsDirectory (path : Text) : Prop :=
  path ≠ [] ∧ ∃ location, self.walk (self.start path) (components path) = .ok location ∧
    self.DirectoryAt location

/-! ## Making a directory -/

/-- The files with a new directory. -/
def addDirectory (granted : Permissions) (name : Text) (location : Location)
    (hdirectory : self.DirectoryAt location) : FileSystem where
  node := Function.update self.node (name :: location) (some (.directory granted))
  current := self.current
  root_directory := by
    rw [Function.update_of_ne (List.cons_ne_nil name location).symm]
    exact self.root_directory
  parent_directory := by
    intro child parent hchild
    by_cases hparent : parent = name :: location
    · exact ⟨granted, by rw [hparent, Function.update_self]⟩
    · rw [Function.update_of_ne hparent]
      by_cases hnew : child :: parent = name :: location
      · rw [(List.cons.inj hnew).2]
        exact hdirectory
      · rw [Function.update_of_ne hnew] at hchild
        exact self.parent_directory child parent hchild

/-- There is a directory at a place in which entries can be made. -/
def WritableAt (location : Location) : Prop :=
  ∃ granted, self.node location = some (.directory granted) ∧ granted.Usable

instance (location : Location) : Decidable (self.WritableAt location) :=
  decidable_of_iff ((self.node location).any Node.takesEntries = true) (by
    unfold WritableAt Permissions.Usable
    rcases self.node location with _ | (granted | _ | target) <;> simp [Node.takesEntries])

/-- Whether a path ends with a slash, and so may name a directory only. -/
def wantsDirectory (path : Text) : Bool := path.getLast? = some slash

/-- What `mkdir` says of a path whose last component is there.  This is POSIX; with a slash behind
the path, Linux says `EEXIST` also of a file and of a link that leads nowhere. -/
def taken (path : Text) : Node → Errno
  | .directory _ => .eexist
  | .file => if wantsDirectory path then .enotdir else .eexist
  | .link target =>
      if wantsDirectory path then
        match self.node target with
        | none => .enoent
        | some (.directory _) => .eexist
        | some _ => .enotdir
      else .eexist

/-- `mkdir` with the last component of a path, in the directory of the others. -/
def mkdirIn (granted : Permissions) (path : Text) (location : Location) (name : Text) :
    Except Errno FileSystem :=
  match self.enter location with
  | .error errno => .error errno
  | .ok () =>
      if name = dot ∨ name = dotdot then .error .eexist
      else
        match self.node (name :: location) with
        | some node => .error (self.taken path node)
        | none =>
            if h : self.WritableAt location then
              .ok (self.addDirectory granted name location ⟨h.choose, h.choose_spec.1⟩)
            else .error .eacces

/-- `mkdir`, with what the mode leaves the process of the new directory. -/
def mkdir (granted : Permissions) (path : Text) : Except Errno FileSystem :=
  if path = [] then .error .enoent
  else
    match (components path).getLast? with
    | none => .error .eexist
    | some name =>
        match self.walk (self.start path) (components path).dropLast with
        | .error errno => .error errno
        | .ok location => self.mkdirIn granted path location name

/-- The files after `mkdir`. -/
def afterMkdir (granted : Permissions) (path : Text) : FileSystem :=
  match self.mkdir granted path with
  | .ok after => after
  | .error _ => self

/-- After `mkdir` there is something at a path. -/
def Admits (granted : Permissions) (path : Text) : Prop :=
  ∀ errno, self.mkdir granted path = .error errno → errno = .eexist

/-! ## Components -/

theorem componentsFrom_append_slash (name front path : Text) :
    componentsFrom name (front ++ slash :: path) =
      componentsFrom name front ++ components path := by
  induction front generalizing name with
  | nil =>
      simp only [List.nil_append, componentsFrom, if_true, components]
      split_ifs <;> rfl
  | cons byte front ih =>
      rw [List.cons_append, componentsFrom, componentsFrom]
      split_ifs
      · exact ih []
      · rw [ih [], List.cons_append]
      · exact ih (name ++ [byte])

theorem components_slash (path : Text) : components (path ++ [slash]) = components path :=
  (componentsFrom_append_slash [] path []).trans (List.append_nil _)

theorem componentsFrom_of_notMem {path : Text} (h : slash ∉ path) (name : Text) :
    componentsFrom name path = if name ++ path = [] then [] else [name ++ path] := by
  induction path generalizing name with
  | nil => rw [componentsFrom, List.append_nil]
  | cons byte path ih =>
      have hbyte : byte ≠ slash := fun heq => h (heq ▸ List.mem_cons_self)
      rw [componentsFrom, if_neg hbyte, ih (fun hmem => h (List.mem_cons_of_mem _ hmem)),
        List.append_assoc, List.singleton_append]

/-- A component that is no more than a name. -/
def Ordinary (name : Text) : Prop := name ≠ [] ∧ slash ∉ name ∧ name ≠ dot ∧ name ≠ dotdot

/-- What has been resolved of a path: nothing, or components with a slash behind them. -/
def Resolved (front : Text) : Prop := front = [] ∨ ∃ path, front = path ++ [slash]

variable {front name : Text}

theorem components_resolved (hfront : Resolved front) (path : Text) :
    components (front ++ path) = components front ++ components path := by
  rcases hfront with rfl | ⟨before, rfl⟩
  · rfl
  · unfold components
    rw [List.append_assoc, List.singleton_append, componentsFrom_append_slash,
      componentsFrom_append_slash, show components [] = [] from rfl, List.append_nil]
    rfl

theorem components_name (hname : slash ∉ name) (hne : name ≠ []) : components name = [name] := by
  rw [components, componentsFrom_of_notMem hname, List.nil_append, if_neg hne]

/-! ## Walks -/

variable {self} {location next : Location} {names : List Text}

theorem enter_eq_ok_iff :
    self.enter location = .ok () ↔
      ∃ granted, self.node location = some (.directory granted) ∧ granted.search = true := by
  unfold enter
  rcases self.node location with _ | (granted | _ | target)
  · simp
  · cases hsearch : granted.search <;> simp [hsearch]
  · simp
  · simp

theorem directoryAt_of_enter (h : self.enter location = .ok ()) : self.DirectoryAt location := by
  obtain ⟨granted, hnode, -⟩ := enter_eq_ok_iff.mp h
  exact ⟨granted, hnode⟩

theorem walk_cons_eq_ok_iff {name : Text} {last : Location} :
    self.walk location (name :: names) = .ok last ↔
      self.enter location = .ok () ∧
        ∃ next, self.follow location name = .ok next ∧ self.walk next names = .ok last := by
  rw [walk]
  rcases self.enter location with errno | ⟨⟩
  · exact iff_of_false (fun h => by cases h) (fun h => by cases h.1)
  · rcases hfollow : self.follow location name with errno | next
    · refine iff_of_false (fun h => by cases h) fun h => ?_
      obtain ⟨-, next, hnext, -⟩ := h
      cases hnext
    · refine ⟨fun h => ⟨rfl, next, rfl, h⟩, fun h => ?_⟩
      obtain ⟨-, next, hnext, hwalk⟩ := h
      cases hnext
      exact hwalk

theorem walk_append_eq_ok_iff {later : List Text} {last : Location} :
    self.walk location (names ++ later) = .ok last ↔
      ∃ middle, self.walk location names = .ok middle ∧ self.walk middle later = .ok last := by
  induction names generalizing location with
  | nil =>
      refine ⟨fun h => ⟨location, rfl, h⟩, fun h => ?_⟩
      obtain ⟨middle, hmiddle, hwalk⟩ := h
      cases hmiddle
      exact hwalk
  | cons name names ih =>
      rw [List.cons_append, walk_cons_eq_ok_iff]
      simp only [walk_cons_eq_ok_iff, ih]
      constructor
      · rintro ⟨henter, next, hfollow, middle, hnames, hlater⟩
        exact ⟨middle, ⟨henter, next, hfollow, hnames⟩, hlater⟩
      · rintro ⟨middle, ⟨henter, next, hfollow, hnames⟩, hlater⟩
        exact ⟨henter, next, hfollow, middle, hnames, hlater⟩

/-! ## Fronts of a path -/

theorem start_append (hne : front ≠ []) (path : Text) :
    self.start (front ++ path) = self.start front := by
  rw [start, start, List.head?_append_of_ne_nil _ hne]

theorem start_resolved (hfront : Resolved front) {path : Text} (hpath : slash ∉ path) :
    self.start (front ++ path) = self.start front := by
  rcases hfront with rfl | ⟨before, rfl⟩
  · have hhead : path.head? ≠ some slash := fun h => hpath (List.mem_of_head? h)
    rw [start, start, List.nil_append, if_neg hhead, List.head?_nil, if_neg (by simp)]
  · exact start_append (by simp) path

/-- The part of a path in front of a slash names a directory too. -/
theorem IsDirectory.of_slash {path : Text} (h : self.IsDirectory (front ++ slash :: path))
    (hne : front ≠ []) : self.IsDirectory front := by
  obtain ⟨-, last, hwalk, hdirectory⟩ := h
  rw [components, componentsFrom_append_slash, start_append hne] at hwalk
  obtain ⟨middle, hfront, hrest⟩ := walk_append_eq_ok_iff.mp hwalk
  refine ⟨hne, middle, hfront, ?_⟩
  cases hcomponents : components path with
  | nil =>
      rw [hcomponents] at hrest
      cases hrest
      exact hdirectory
  | cons name names =>
      rw [hcomponents] at hrest
      exact directoryAt_of_enter (walk_cons_eq_ok_iff.mp hrest).1

/-! ## Growth -/

/-- Nothing has changed but for new directories where there was nothing. -/
structure GrowsBy (granted : Permissions) (before after : FileSystem) : Prop where
  current : after.current = before.current
  node : ∀ location, after.node location = before.node location ∨
    before.node location = none ∧ after.node location = some (.directory granted)

variable {granted : Permissions} {before after : FileSystem}

theorem GrowsBy.refl (granted : Permissions) (self : FileSystem) : GrowsBy granted self self :=
  ⟨rfl, fun _ => .inl rfl⟩

theorem GrowsBy.trans {later : FileSystem} (hfirst : GrowsBy granted before after)
    (hsecond : GrowsBy granted after later) : GrowsBy granted before later := by
  refine ⟨hsecond.current.trans hfirst.current, fun location => ?_⟩
  rcases hsecond.node location with hsame | ⟨hmissing, hmade⟩
  · rw [hsame]
    exact hfirst.node location
  · rcases hfirst.node location with hsame | ⟨-, hmade'⟩
    · exact .inr ⟨hsame ▸ hmissing, hmade⟩
    · rw [hmissing] at hmade'
      cases hmade'

theorem GrowsBy.keeps (h : GrowsBy granted before after) {node : Node}
    (hnode : before.node location = some node) : after.node location = some node := by
  rcases h.node location with hsame | ⟨hmissing, -⟩
  · rw [hsame, hnode]
  · rw [hmissing] at hnode
    cases hnode

theorem GrowsBy.start (h : GrowsBy granted before after) (path : Text) :
    after.start path = before.start path := by
  rw [FileSystem.start, FileSystem.start, h.current]

theorem GrowsBy.follow (h : GrowsBy granted before after) {name : Text}
    (hfollow : before.follow location name = .ok next) :
    after.follow location name = .ok next := by
  unfold FileSystem.follow at *
  split_ifs at hfollow ⊢ with hdot hdotdot
  · exact hfollow
  · exact hfollow
  · cases hnode : before.node (name :: location) with
    | none =>
        rw [hnode] at hfollow
        cases hfollow
    | some node =>
        rw [hnode] at hfollow
        rw [h.keeps hnode]
        exact hfollow

theorem GrowsBy.enter (h : GrowsBy granted before after)
    (henter : before.enter location = .ok ()) : after.enter location = .ok () := by
  obtain ⟨permitted, hnode, hsearch⟩ := enter_eq_ok_iff.mp henter
  exact enter_eq_ok_iff.mpr ⟨permitted, h.keeps hnode, hsearch⟩

theorem GrowsBy.walk (h : GrowsBy granted before after) {last : Location}
    (hwalk : before.walk location names = .ok last) : after.walk location names = .ok last := by
  induction names generalizing location with
  | nil => exact hwalk
  | cons name names ih =>
      obtain ⟨henter, next, hfollow, hrest⟩ := walk_cons_eq_ok_iff.mp hwalk
      exact walk_cons_eq_ok_iff.mpr ⟨h.enter henter, next, h.follow hfollow, ih hrest⟩

theorem GrowsBy.walk_start (h : GrowsBy granted before after) {path : Text} {last : Location}
    (hwalk : before.walk (before.start path) names = .ok last) :
    after.walk (after.start path) names = .ok last := by
  rw [h.start]
  exact h.walk hwalk

/-- A path that led to a directory still does. -/
theorem IsDirectory.grows {path : Text} (h : before.IsDirectory path)
    (hgrows : GrowsBy granted before after) : after.IsDirectory path := by
  obtain ⟨hne, location, hwalk, permitted, hnode⟩ := h
  exact ⟨hne, location, hgrows.walk_start hwalk, permitted, hgrows.keeps hnode⟩

theorem addDirectory_grows {name : Text} (hdirectory : self.DirectoryAt location)
    (hmissing : self.node (name :: location) = none) :
    GrowsBy granted self (self.addDirectory granted name location hdirectory) := by
  refine ⟨rfl, fun place => ?_⟩
  by_cases hplace : place = name :: location
  · subst hplace
    exact .inr ⟨hmissing, Function.update_self _ _ _⟩
  · exact .inl (Function.update_of_ne hplace _ _)

/-! ## What `mkdir` does -/

theorem mkdirIn_grows {path name : Text} (h : self.mkdirIn granted path location name = .ok after) :
    GrowsBy granted self after := by
  unfold mkdirIn at h
  split at h
  · cases h
  · split_ifs at h with hdots hwritable
    · split at h
      · cases h
      · next hmissing =>
          cases h
          exact addDirectory_grows _ hmissing
    · split at h <;> cases h

theorem mkdir_grows {path : Text} (h : self.mkdir granted path = .ok after) :
    GrowsBy granted self after := by
  unfold mkdir at h
  split_ifs at h with hempty
  split at h
  · cases h
  · split at h
    · cases h
    · exact mkdirIn_grows h

theorem afterMkdir_grows (granted : Permissions) (self : FileSystem) (path : Text) :
    GrowsBy granted self (self.afterMkdir granted path) := by
  unfold afterMkdir
  cases h : self.mkdir granted path with
  | error errno => exact GrowsBy.refl granted self
  | ok after => exact mkdir_grows h

theorem enter_of_writable (h : self.WritableAt location) : self.enter location = .ok () := by
  obtain ⟨granted, hnode, hsearch, hwrite⟩ := h
  exact enter_eq_ok_iff.mpr ⟨granted, hnode, hsearch⟩

theorem mkdir_name (hfront : Resolved front) (hname : slash ∉ name) (hne : name ≠ [])
    (hwalk : self.walk (self.start (front ++ name)) (components front) = .ok location) :
    self.mkdir granted (front ++ name) = self.mkdirIn granted (front ++ name) location name := by
  have hpath : front ++ name ≠ [] := List.append_ne_nil_of_right_ne_nil front hne
  rw [mkdir, if_neg hpath, components_resolved hfront, components_name hname hne,
    List.getLast?_concat, List.dropLast_concat, hwalk]

theorem wantsDirectory_name (hname : slash ∉ name) (hne : name ≠ []) :
    wantsDirectory (front ++ name) = false := by
  have hlast : name.getLast hne ≠ slash := fun h => hname (h ▸ List.getLast_mem hne)
  rw [wantsDirectory, List.getLast?_append_of_ne_nil _ hne, List.getLast?_eq_getLast_of_ne_nil hne]
  simpa using hlast

theorem taken_name (hname : slash ∉ name) (hne : name ≠ []) (node : Node) :
    self.taken (front ++ name) node = .eexist := by
  cases node <;> simp [taken, wantsDirectory_name hname hne]

/-- A name is there after `mkdir` in a directory that takes entries. -/
theorem admits_name (hfront : Resolved front) (hname : slash ∉ name) (hne : name ≠ [])
    (hwalk : self.walk (self.start (front ++ name)) (components front) = .ok location)
    (hwritable : self.WritableAt location) : self.Admits granted (front ++ name) := by
  intro errno herror
  rw [mkdir_name hfront hname hne hwalk, mkdirIn, enter_of_writable hwritable] at herror
  simp only [dif_pos hwritable] at herror
  split_ifs at herror with hdots
  · cases herror
    rfl
  · cases hnode : self.node (name :: location) with
    | none =>
        rw [hnode] at herror
        cases herror
    | some node =>
        rw [hnode] at herror
        cases herror
        exact taken_name hname hne node

theorem afterMkdir_name (hfront : Resolved front) (hname : Ordinary name)
    (hwalk : self.walk (self.start front) (components front) = .ok location)
    (hwritable : self.WritableAt location) (hmissing : self.node (name :: location) = none) :
    (self.afterMkdir granted (front ++ name)).node =
      Function.update self.node (name :: location) (some (.directory granted)) := by
  obtain ⟨hne, hslash, hdot, hdotdot⟩ := hname
  rw [← start_resolved hfront hslash] at hwalk
  rw [afterMkdir, mkdir_name hfront hslash hne hwalk, mkdirIn, enter_of_writable hwritable]
  simp only [hdot, hdotdot, or_self, if_false, hmissing, dif_pos hwritable]
  rfl

/-- A name that `mkdir` admits was there before and nothing has changed, or it is made. -/
theorem Admits.cases_name (h : self.Admits granted (front ++ name)) (hfront : Resolved front)
    (hname : Ordinary name)
    (hwalk : self.walk (self.start front) (components front) = .ok location) :
    self.enter location = .ok () ∧
      ((∃ node, self.node (name :: location) = some node ∧
          self.afterMkdir granted (front ++ name) = self) ∨
        self.node (name :: location) = none ∧ self.WritableAt location) := by
  obtain ⟨hne, hslash, hdot, hdotdot⟩ := hname
  rw [← start_resolved hfront hslash] at hwalk
  have hmkdir : self.mkdir granted (front ++ name) = _ := mkdir_name hfront hslash hne hwalk
  unfold Admits at h
  unfold afterMkdir
  rw [hmkdir] at h ⊢
  unfold mkdirIn at h ⊢
  cases henter : self.enter location with
  | error errno =>
      -- the errors of a lookup are not `eexist`
      rw [henter] at h
      have herrno := h errno rfl
      subst herrno
      unfold enter at henter
      split at henter
      · cases henter
      · split_ifs at henter
        cases henter
      · cases henter
  | ok done =>
      refine ⟨rfl, ?_⟩
      simp only [henter, hdot, hdotdot, or_self, if_false] at h ⊢
      cases hnode : self.node (name :: location) with
      | some node => exact .inl ⟨node, rfl, rfl⟩
      | none =>
          refine .inr ⟨rfl, ?_⟩
          by_contra hwritable
          have herror := h .eacces (by simp only [hnode, dif_neg hwritable])
          cases herror

theorem taken_directory {path : Text} {node : Node} (hnode : self.node location = some node)
    (hdirectory : self.DirectoryAt (node.leads location)) : self.taken path node = .eexist := by
  obtain ⟨granted, hgranted⟩ := hdirectory
  cases node with
  | directory _ => rfl
  | file =>
      have hfile : self.node location = some (.directory granted) := hgranted
      rw [hnode] at hfile
      cases hfile
  | link target =>
      have htarget : self.node target = some (.directory granted) := hgranted
      rw [taken, htarget]
      split_ifs <;> rfl

/-- A directory is there, also with a slash behind it. -/
theorem admits_slash {path : Text}
    (hwalk : self.walk (self.start (path ++ [slash])) (components path) = .ok location)
    (hdirectory : self.DirectoryAt location) : self.Admits granted (path ++ [slash]) := by
  intro errno herror
  rw [mkdir, if_neg (List.append_ne_nil_of_right_ne_nil path (List.cons_ne_nil _ _)),
    components_slash] at herror
  rcases List.eq_nil_or_concat' (components path) with hnil | ⟨before, last, hlast⟩
  · rw [hnil] at herror
    cases herror
    rfl
  · rw [hlast] at hwalk
    rw [hlast, List.getLast?_concat, List.dropLast_concat] at herror
    obtain ⟨middle, hbefore, hwalkLast⟩ := walk_append_eq_ok_iff.mp hwalk
    obtain ⟨henter, next, hfollow, hnext⟩ := walk_cons_eq_ok_iff.mp hwalkLast
    cases hnext
    rw [hbefore] at herror
    simp only [mkdirIn, henter] at herror
    by_cases hdots : last = dot ∨ last = dotdot
    · rw [if_pos hdots] at herror
      cases herror
      rfl
    · rw [if_neg hdots] at herror
      rw [follow, if_neg (fun h => hdots (.inl h)), if_neg (fun h => hdots (.inr h))] at hfollow
      cases hnode : self.node (last :: middle) with
      | none =>
          rw [hnode] at hfollow
          cases hfollow
      | some node =>
          rw [hnode] at hfollow herror
          cases hfollow
          cases herror
          exact taken_directory hnode hdirectory

/-! ## Paths that can be made -/

/-- From a place on, each directory that there is takes entries; the last need not. -/
def Descends (self : FileSystem) : Location → List Text → Prop
  | location, [] => self.DirectoryAt location
  | location, name :: names => self.WritableAt location ∧
      ∀ node, self.node (name :: location) = some node →
        Descends self (node.leads (name :: location)) names

/-- The components behind a place, each with a slash in front. -/
def joined : List Text → Text
  | [] => []
  | name :: names => slash :: (name ++ joined names)

/-- A path of ordinary components whose existing ancestors are directories that take entries, for a
process whose new directories do. -/
def Makeable (self : FileSystem) (granted : Permissions) (path : Text) : Prop :=
  granted.Usable ∧ ∃ name names, (∀ component ∈ name :: names, Ordinary component) ∧
    (path = name ++ joined names ∧ self.Descends self.current (name :: names) ∨
      path = joined (name :: names) ∧ self.Descends [] (name :: names))

/-- Where a directory has been made there is nothing yet below. -/
theorem GrowsBy.descends_made (h : GrowsBy granted before after) (hgranted : granted.Usable)
    (hmissing : before.node location = none)
    (hmade : after.node location = some (.directory granted)) :
    after.Descends location names := by
  induction names generalizing location with
  | nil => exact ⟨granted, hmade⟩
  | cons name names ih =>
      refine ⟨⟨granted, hmade, hgranted⟩, fun node hnode => ?_⟩
      have hbelow : before.node (name :: location) = none := by
        by_contra hthere
        obtain ⟨permitted, hparent⟩ := before.parent_directory name location hthere
        rw [hmissing] at hparent
        cases hparent
      rcases h.node (name :: location) with hsame | ⟨-, hmade'⟩
      · rw [hsame, hbelow] at hnode
        cases hnode
      · rw [hmade'] at hnode
        cases hnode
        exact ih hbelow hmade'

theorem GrowsBy.descends (h : GrowsBy granted before after) (hgranted : granted.Usable)
    (hdescends : before.Descends location names) : after.Descends location names := by
  induction names generalizing location with
  | nil =>
      obtain ⟨permitted, hnode⟩ := hdescends
      exact ⟨permitted, h.keeps hnode⟩
  | cons name names ih =>
      obtain ⟨⟨permitted, hnode, htakes⟩, hrest⟩ := hdescends
      refine ⟨⟨permitted, h.keeps hnode, htakes⟩, fun node hafter => ?_⟩
      rcases h.node (name :: location) with hsame | ⟨hmissing, hmade⟩
      · exact ih (hrest node (hsame ▸ hafter))
      · rw [hmade] at hafter
        cases hafter
        exact h.descends_made hgranted hmissing hmade

theorem walk_behind (hfront : Resolved front) (hname : Ordinary name) {node : Node}
    (hwalk : self.walk (self.start front) (components front) = .ok location)
    (henter : self.enter location = .ok ()) (hnode : self.node (name :: location) = some node) :
    self.walk (self.start (front ++ name ++ [slash])) (components (front ++ name ++ [slash])) =
      .ok (node.leads (name :: location)) := by
  obtain ⟨hne, hslash, hdot, hdotdot⟩ := hname
  have hcomponents : components (front ++ name ++ [slash]) = components front ++ [name] :=
    calc components (front ++ name ++ [slash])
        = components (front ++ name) := components_slash (front ++ name)
      _ = components front ++ components name := components_resolved hfront name
      _ = components front ++ [name] := by rw [components_name hslash hne]
  rw [hcomponents, start_append (List.append_ne_nil_of_right_ne_nil front hne),
    start_resolved hfront hslash]
  refine walk_append_eq_ok_iff.mpr ⟨location, hwalk, walk_cons_eq_ok_iff.mpr ⟨henter, _, ?_, rfl⟩⟩
  rw [follow, if_neg hdot, if_neg hdotdot, hnode]

/-- After `mkdir` of an ordinary name the descent goes on behind it. -/
theorem Descends.mkdir (hgranted : granted.Usable) (hfront : Resolved front)
    (hname : Ordinary name) (hwalk : self.walk (self.start front) (components front) = .ok location)
    (h : self.Descends location (name :: names)) :
    ∃ next, (self.afterMkdir granted (front ++ name)).walk
        ((self.afterMkdir granted (front ++ name)).start (front ++ name ++ [slash]))
        (components (front ++ name ++ [slash])) = .ok next ∧
      (self.afterMkdir granted (front ++ name)).Descends next names := by
  have hgrows := afterMkdir_grows granted self (front ++ name)
  obtain ⟨node, hnode⟩ : ∃ node,
      (self.afterMkdir granted (front ++ name)).node (name :: location) = some node := by
    cases hnode : self.node (name :: location) with
    | none =>
        rw [afterMkdir_name hfront hname hwalk h.1 hnode]
        exact ⟨_, Function.update_self _ _ _⟩
    | some node => exact ⟨node, hgrows.keeps hnode⟩
  have hafter := hgrows.descends hgranted h
  exact ⟨node.leads (name :: location), walk_behind hfront hname (hgrows.walk_start hwalk)
    (enter_of_writable hafter.1) hnode, hafter.2 node hnode⟩

end FileSystem

end FileSystems
