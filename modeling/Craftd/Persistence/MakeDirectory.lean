import Craftd.Library.FileSystem
import Mathlib.Data.Int.Notation

/-!
# Making the directories of a path

A translation of `CD_mkdir`.  The loop calls `mkdir` with what precedes each separator, a
backslash being one, and never with the path itself.

* A path that begins with a separator: the first call has the empty path, so the result is
  -1 (`cdMkdir_leading`).
* Another path: the result is 0 exactly if there is something at each of these parts after
  its call, and a path of ordinary components whose ancestors take entries has that
  (`admitsAll_makeable`).  What is missing is the last component: such a path without
  backslashes must be a directory already (`covered_iff_of_makeable`), and with a slash behind it
  all of it is made (`covered_slash`).
-/

namespace Craftd.Persistence

open FileSystems FileSystems.FileSystem

/-- The bytes at which `CD_mkdir` stops. -/
def isSeparator (byte : BitVec 8) : Bool := byte = slash || byte = 0x5C

/-- Whether a path begins with a separator. -/
def leading (path : Text) : Bool := path.head?.any isSeparator

/-- The loop of `CD_mkdir` behind the bytes of `tmp`. -/
def mkdirLoop (granted : Permissions) : FileSystem → Text → Text → ℤ × FileSystem
  | files, _, [] => (0, files)
  | files, tmp, byte :: path =>
      if isSeparator byte then
        match files.mkdir granted tmp with
        | .ok files => mkdirLoop granted files (tmp ++ [byte]) path
        | .error errno =>
            if errno = .eexist then mkdirLoop granted files (tmp ++ [byte]) path
            else (-1, files)
      else mkdirLoop granted files (tmp ++ [byte]) path

/-- `CD_mkdir` on the bytes of a path before its NUL, with what the mode leaves the process of a
new directory. -/
def cdMkdir (files : FileSystem) (granted : Permissions) (path : Text) : ℤ × FileSystem :=
  mkdirLoop granted files [] path

/-! ## The calls of `mkdir` -/

/-- What precedes the separators of a path, the first one behind the bytes of `tmp`. -/
def cutsFrom (tmp : Text) : Text → List Text
  | [] => []
  | byte :: path =>
      if isSeparator byte then tmp :: cutsFrom (tmp ++ [byte]) path
      else cutsFrom (tmp ++ [byte]) path

/-- What precedes the separators of a path. -/
def cuts (path : Text) : List Text := cutsFrom [] path

/-- The files after `mkdir` of each of the paths. -/
def afterAll (granted : Permissions) (files : FileSystem) (paths : List Text) : FileSystem :=
  paths.foldl (fun files path => files.afterMkdir granted path) files

/-- Each of the paths is there or can be made, once those before it are. -/
def AdmitsAll (granted : Permissions) : FileSystem → List Text → Prop
  | _, [] => True
  | files, path :: paths =>
      files.Admits granted path ∧ AdmitsAll granted (files.afterMkdir granted path) paths

variable {granted : Permissions} {files : FileSystem} {tmp path : Text}

theorem cutsFrom_append (tmp first path : Text) :
    cutsFrom tmp (first ++ path) = cutsFrom tmp first ++ cutsFrom (tmp ++ first) path := by
  induction first generalizing tmp with
  | nil => simp [cutsFrom]
  | cons byte first ih =>
      rw [List.cons_append, cutsFrom, cutsFrom, ih]
      split_ifs <;> simp

theorem cutsFrom_slash (tmp path : Text) :
    cutsFrom tmp (slash :: path) = tmp :: cutsFrom (tmp ++ [slash]) path := by
  rw [cutsFrom, if_pos (show isSeparator slash = true by decide)]

theorem afterAll_append (granted : Permissions) (files : FileSystem) (first paths : List Text) :
    afterAll granted files (first ++ paths) =
      afterAll granted (afterAll granted files first) paths :=
  List.foldl_append

theorem afterAll_cons (granted : Permissions) (files : FileSystem) (path : Text)
    (paths : List Text) :
    afterAll granted files (path :: paths) =
      afterAll granted (files.afterMkdir granted path) paths :=
  rfl

theorem mkdirLoop_of_admits (h : AdmitsAll granted files (cutsFrom tmp path)) :
    mkdirLoop granted files tmp path = (0, afterAll granted files (cutsFrom tmp path)) := by
  induction path generalizing files tmp with
  | nil => rfl
  | cons byte path ih =>
      rw [mkdirLoop, cutsFrom]
      rw [cutsFrom] at h
      split_ifs at h ⊢ with hseparator
      · obtain ⟨hfirst, hrest⟩ := h
        have hloop := ih hrest
        unfold afterMkdir at hloop
        cases hmkdir : files.mkdir granted tmp with
        | ok after =>
            rw [hmkdir] at hloop
            simp only [hloop, afterAll, List.foldl_cons, afterMkdir, hmkdir]
        | error errno =>
            rw [hmkdir] at hloop
            simp only [hfirst errno hmkdir, if_true, hloop, afterAll, List.foldl_cons, afterMkdir,
              hmkdir]
      · exact ih h

private theorem mkdirLoop_of_not_admits (h : ¬AdmitsAll granted files (cutsFrom tmp path)) :
    (mkdirLoop granted files tmp path).1 = -1 := by
  induction path generalizing files tmp with
  | nil => exact absurd trivial h
  | cons byte path ih =>
      rw [mkdirLoop]
      rw [cutsFrom] at h
      split_ifs at h ⊢ with hseparator
      · cases hmkdir : files.mkdir granted tmp with
        | ok after =>
            refine ih fun hrest => h ⟨fun errno herror => ?_, ?_⟩
            · rw [hmkdir] at herror
              cases herror
            · rw [afterMkdir, hmkdir]
              exact hrest
        | error errno =>
            simp only
            split_ifs with hexist
            · refine ih fun hrest => h ⟨fun errno' herror => ?_, ?_⟩
              · rw [hmkdir] at herror
                cases herror
                exact hexist
              · rw [afterMkdir, hmkdir]
                exact hrest
            · rfl
      · exact ih h

/-- `CD_mkdir` returns 0 exactly if each part in front of a separator is there or can be made. -/
theorem cdMkdir_eq_zero_iff :
    (cdMkdir files granted path).1 = 0 ↔ AdmitsAll granted files (cuts path) := by
  by_cases h : AdmitsAll granted files (cuts path)
  · exact iff_of_true (by rw [cdMkdir, mkdirLoop_of_admits h]) h
  · refine iff_of_false ?_ h
    rw [cdMkdir, mkdirLoop_of_not_admits h]
    omega

/-! ## Paths that can be made -/

/-- A part of a name in a directory that takes entries is there or can be made. -/
theorem admits_part {front part : Text} {location : Location} (hfront : Resolved front)
    (hpart : slash ∉ part) (hne : front ++ part ≠ [])
    (hwalk : files.walk (files.start front) (components front) = .ok location)
    (hwritable : files.WritableAt location) : files.Admits granted (front ++ part) := by
  by_cases hempty : part = []
  · subst hempty
    rw [List.append_nil] at hne ⊢
    rcases hfront with rfl | ⟨before, rfl⟩
    · exact absurd rfl hne
    · obtain ⟨permitted, hnode, -⟩ := hwritable
      rw [components_slash] at hwalk
      exact admits_slash hwalk ⟨permitted, hnode⟩
  · rw [← start_resolved hfront hpart] at hwalk
    exact admits_name hfront hpart hempty hwalk hwritable

/-- Backslashes in a name stop the loop too, and then a part of the name is made. -/
theorem admitsAll_part (granted : Permissions) {front : Text} {location : Location}
    (hfront : Resolved front) (part later rest : Text) (hname : slash ∉ part ++ later)
    (hleading : front ++ part ≠ [] ∨ leading later = false)
    (hwalk : files.walk (files.start front) (components front) = .ok location)
    (hwritable : files.WritableAt location)
    (hrest : ∀ after, GrowsBy granted files after →
      AdmitsAll granted after (cutsFrom (front ++ (part ++ later)) rest)) :
    AdmitsAll granted files (cutsFrom (front ++ part) (later ++ rest)) := by
  induction later generalizing files part with
  | nil =>
      rw [List.append_nil] at hrest
      exact hrest files (GrowsBy.refl granted files)
  | cons byte later ih =>
      have hsplit : part ++ byte :: later = part ++ [byte] ++ later := by simp
      have hnonempty : front ++ (part ++ [byte]) ≠ [] := by simp
      have hpart : slash ∉ part := fun hmem => hname (List.mem_append_left _ hmem)
      rw [hsplit] at hname hrest
      rw [List.cons_append, cutsFrom]
      split_ifs with hseparator
      · have hne : front ++ part ≠ [] := by
          rcases hleading with hne | hhead
          · exact hne
          · exact absurd hseparator (Bool.eq_false_iff.mp hhead)
        have hgrows := afterMkdir_grows granted files (front ++ part)
        refine ⟨admits_part hfront hpart hne hwalk hwritable, ?_⟩
        rw [List.append_assoc]
        obtain ⟨permitted, hnode, hpermitted⟩ := hwritable
        refine ih _ hname (.inl hnonempty) ?_ ⟨permitted, hgrows.keeps hnode, hpermitted⟩
          fun after hafter => hrest after (hgrows.trans hafter)
        rw [hgrows.start]
        exact hgrows.walk hwalk
      · rw [List.append_assoc]
        exact ih _ hname (.inl hnonempty) hwalk hwritable hrest

theorem admitsAll_name {front name : Text} {location : Location} (hfront : Resolved front)
    (rest : Text) (hname : Ordinary name) (hleading : front ≠ [] ∨ leading name = false)
    (hwalk : files.walk (files.start front) (components front) = .ok location)
    (hwritable : files.WritableAt location)
    (hrest : ∀ after, GrowsBy granted files after →
      AdmitsAll granted after (cutsFrom (front ++ name) rest)) :
    AdmitsAll granted files (cutsFrom front (name ++ rest)) := by
  have hloop := admitsAll_part granted hfront [] name rest hname.2.1
    (by rwa [List.append_nil]) hwalk hwritable
  rw [List.append_nil, List.nil_append] at hloop
  exact hloop hrest

/-- The loop goes through a path whose existing ancestors take entries. -/
theorem admitsAll_descends (hgranted : granted.Usable) (names : List Text) {front name : Text}
    {location : Location} (hfront : Resolved front)
    (hordinary : ∀ component ∈ name :: names, Ordinary component)
    (hleading : front ≠ [] ∨ leading name = false)
    (hwalk : files.walk (files.start front) (components front) = .ok location)
    (hdescends : files.Descends location (name :: names)) :
    AdmitsAll granted files (cutsFrom front (name ++ joined names)) := by
  have hname : Ordinary name := hordinary name List.mem_cons_self
  induction names generalizing files front name location with
  | nil =>
      exact admitsAll_name hfront [] hname hleading hwalk hdescends.1 fun after hgrows => trivial
  | cons following names ih =>
      refine admitsAll_name hfront _ hname hleading hwalk hdescends.1 fun after hgrows => ?_
      have hwalk' : after.walk (after.start front) (components front) = .ok location := by
        rw [hgrows.start]
        exact hgrows.walk hwalk
      have hdescends' := hgrows.descends hgranted hdescends
      have hordinary' : ∀ component ∈ following :: names, Ordinary component :=
        fun component hmem => hordinary component (List.mem_cons_of_mem _ hmem)
      rw [joined, cutsFrom_slash]
      refine ⟨admits_part hfront hname.2.1 (List.append_ne_nil_of_right_ne_nil front hname.1)
        hwalk' hdescends'.1, ?_⟩
      -- the next component, behind the name and its slash
      obtain ⟨next, hnext, hbelow⟩ := hdescends'.mkdir hgranted hfront hname hwalk'
      exact ih (.inr ⟨front ++ name, rfl⟩) hordinary' (.inl (by simp)) hnext hbelow
        (hordinary' following List.mem_cons_self)

theorem admitsAll_makeable (hrelative : leading path = false)
    (h : files.Makeable granted path) : AdmitsAll granted files (cuts path) := by
  obtain ⟨hgranted, name, names, hordinary, ⟨rfl, hdescends⟩ | ⟨rfl, -⟩⟩ := h
  · have hne : name ≠ [] := (hordinary name List.mem_cons_self).1
    refine admitsAll_descends hgranted names (.inl rfl) hordinary (.inr ?_) rfl hdescends
    unfold leading at hrelative ⊢
    rwa [List.head?_append_of_ne_nil _ hne] at hrelative
  · exact absurd hrelative (by simp [leading, joined, isSeparator])

/-- `CD_mkdir` of a path that begins with a separator fails at once. -/
theorem cdMkdir_leading (h : leading path = true) : cdMkdir files granted path = (-1, files) := by
  have hmkdir : files.mkdir granted [] = .error .enoent := if_pos rfl
  cases path with
  | nil => cases h
  | cons byte path =>
      have hseparator : isSeparator byte = true := h
      rw [cdMkdir, mkdirLoop, if_pos hseparator, hmkdir]
      rfl

/-! ## The result -/

/-- The parts of a path that end before a slash, and the path. -/
def Front (front path : Text) : Prop :=
  front = path ∨ front ≠ [] ∧ ∃ rest, path = front ++ slash :: rest

/-- `CD_mkdir` returns 0 only if all of the path is there, and it does for a path that can be
made. -/
def CreatesOrSays (files : FileSystem) (granted : Permissions) (path : Text) : Prop :=
  ((cdMkdir files granted path).1 = 0 →
    ∀ front, Front front path → (cdMkdir files granted path).2.IsDirectory front) ∧
  (files.Makeable granted path → (cdMkdir files granted path).1 = 0)

/-- A path that begins with a separator must not be one that can be made; of another path, once
each part in front of a separator is there, the whole must be a directory. -/
def Covered (files : FileSystem) (granted : Permissions) (path : Text) : Prop :=
  if leading path then ¬files.Makeable granted path
  else AdmitsAll granted files (cuts path) →
    (afterAll granted files (cuts path)).IsDirectory path

theorem afterAll_grows (granted : Permissions) (files : FileSystem) (paths : List Text) :
    GrowsBy granted files (afterAll granted files paths) := by
  induction paths generalizing files with
  | nil => exact GrowsBy.refl granted files
  | cons path paths ih => exact (afterMkdir_grows granted files path).trans (ih _)

/-- The directory that a relative path already names is enough. -/
theorem covered_of_isDirectory (hrelative : leading path = false) (h : files.IsDirectory path) :
    Covered files granted path := by
  rw [Covered, hrelative]
  exact fun _ => h.grows (afterAll_grows granted files (cuts path))

theorem createsOrSays_iff (files : FileSystem) (granted : Permissions) (path : Text) :
    CreatesOrSays files granted path ↔ Covered files granted path := by
  unfold CreatesOrSays Covered
  split_ifs with hleading
  · rw [cdMkdir_leading hleading]
    refine ⟨fun h hmakeable => ?_, fun h => ⟨fun hzero => ?_, fun hmakeable => absurd hmakeable h⟩⟩
    · have hresult := h.2 hmakeable
      omega
    · omega
  · have hrelative : leading path = false := Bool.eq_false_iff.mpr hleading
    rw [cdMkdir_eq_zero_iff]
    constructor
    · intro h hadmits
      have hwhole := h.1 hadmits path (.inl rfl)
      rwa [cdMkdir, mkdirLoop_of_admits hadmits] at hwhole
    · intro h
      refine ⟨fun hadmits front hfront => ?_, admitsAll_makeable hrelative⟩
      rw [cdMkdir, mkdirLoop_of_admits hadmits]
      obtain rfl | ⟨hne, rest, rfl⟩ := hfront
      · exact h hadmits
      · exact (h hadmits).of_slash hne

/-- A root that takes entries, and nothing in it. -/
def bareFiles : FileSystem where
  node location := if location = [] then some (.directory ⟨true, true⟩) else none
  current := []
  root_directory := ⟨⟨true, true⟩, rfl⟩
  parent_directory name location h := absurd (if_neg (List.cons_ne_nil name location)) h

/-- The last component of a path is never made, and an absolute path not at all. -/
theorem cdMkdir_wrong :
    ¬CreatesOrSays bareFiles ⟨true, true⟩ [0x61] ∧
      ¬CreatesOrSays bareFiles ⟨true, true⟩ [slash, 0x61] := by
  constructor
  · intro h
    obtain ⟨-, location, hwalk, -⟩ := h.1 rfl [0x61] (.inl rfl)
    have hmissing : bareFiles.walk (bareFiles.start [0x61]) (components [0x61]) =
        .error .enoent := rfl
    have hok : bareFiles.walk (bareFiles.start [0x61]) (components [0x61]) = .ok location := hwalk
    rw [hmissing] at hok
    cases hok
  · intro h
    have hroot : bareFiles.WritableAt [] := ⟨⟨true, true⟩, rfl, rfl, rfl⟩
    have hname : Ordinary [0x61] := by
      unfold Ordinary
      decide
    have hmakeable : bareFiles.Makeable ⟨true, true⟩ [slash, 0x61] := by
      refine ⟨⟨rfl, rfl⟩, [0x61], [], by simpa using hname, .inr ⟨rfl, hroot, ?_⟩⟩
      intro node hnode
      cases hnode
    have hzero := h.2 hmakeable
    rw [cdMkdir_leading rfl] at hzero
    exact absurd hzero (by decide)

/-! ## Before the call -/

/-- A name without a backslash is one step of the loop only. -/
def Unseparated (name : Text) : Prop := ∀ byte ∈ name, isSeparator byte = false

theorem cutsFrom_unseparated {name : Text} (hname : Unseparated name) (tmp : Text) :
    cutsFrom tmp name = [] := by
  induction name generalizing tmp with
  | nil => rfl
  | cons byte name ih =>
      rw [cutsFrom, hname byte List.mem_cons_self, if_neg Bool.false_ne_true]
      exact ih (fun other hmem => hname other (List.mem_cons_of_mem _ hmem)) _

section Components

variable {front name : Text} {names : List Text} {location : Location}

theorem cutsFrom_name (hname : Unseparated name) (front : Text) (following : Text)
    (names : List Text) :
    cutsFrom front (name ++ joined (following :: names)) =
      (front ++ name) :: cutsFrom (front ++ name ++ [slash]) (following ++ joined names) := by
  rw [cutsFrom_append, cutsFrom_unseparated hname, List.nil_append, joined, cutsFrom_slash]

theorem path_behind (front name following : Text) (names : List Text) :
    front ++ (name ++ joined (following :: names)) =
      front ++ name ++ [slash] ++ (following ++ joined names) := by
  simp [joined]

theorem made_behind (granted : Permissions) (hfront : Resolved front) (hname : Ordinary name)
    (hwalk : files.walk (files.start front) (components front) = .ok location)
    (hwritable : files.WritableAt location) (hmissing : files.node (name :: location) = none) :
    (files.afterMkdir granted (front ++ name)).walk
        ((files.afterMkdir granted (front ++ name)).start (front ++ name ++ [slash]))
        (components (front ++ name ++ [slash])) = .ok (name :: location) ∧
      ∀ child, (files.afterMkdir granted (front ++ name)).node (child :: name :: location) =
        none := by
  have hgrows := afterMkdir_grows granted files (front ++ name)
  have hmade : (files.afterMkdir granted (front ++ name)).node = _ :=
    afterMkdir_name hfront hname hwalk hwritable hmissing
  constructor
  · have hdirectory : (files.afterMkdir granted (front ++ name)).node (name :: location) =
        some (.directory granted) := by
      rw [hmade, Function.update_self]
    exact walk_behind hfront hname (hgrows.walk_start hwalk)
      (hgrows.enter (enter_of_writable hwritable)) hdirectory
  · intro child
    rw [hmade, Function.update_of_ne (List.cons_ne_self child (name :: location))]
    -- what has an entry would have been a directory before
    by_contra hthere
    obtain ⟨permitted, hparent⟩ := files.parent_directory child _ hthere
    rw [hmissing] at hparent
    cases hparent

/-- From an empty directory on the loop makes one directory in the other, and never the last. -/
theorem not_isDirectory_of_bare (hfront : Resolved front)
    (hnames : ∀ component ∈ name :: names, Ordinary component ∧ Unseparated component)
    (hwalk : files.walk (files.start front) (components front) = .ok location)
    (hbare : ∀ child, files.node (child :: location) = none)
    (hadmits : AdmitsAll granted files (cutsFrom front (name ++ joined names))) :
    ¬(afterAll granted files (cutsFrom front (name ++ joined names))).IsDirectory
      (front ++ (name ++ joined names)) := by
  induction names generalizing files front name location with
  | nil =>
      obtain ⟨hname, hwhole⟩ := hnames name List.mem_cons_self
      rw [joined, List.append_nil, cutsFrom_unseparated hwhole]
      rintro ⟨-, last, hlast, -⟩
      rw [start_resolved hfront hname.2.1, components_resolved hfront,
        components_name hname.2.1 hname.1] at hlast
      obtain ⟨middle, hmiddle, hstep⟩ := walk_append_eq_ok_iff.mp hlast
      obtain ⟨-, next, hfollow, -⟩ := walk_cons_eq_ok_iff.mp hstep
      have hsame : files.walk (files.start front) (components front) = .ok middle := hmiddle
      rw [hwalk] at hsame
      cases hsame
      have hmissing : files.follow location name = .ok next := hfollow
      rw [follow, if_neg hname.2.2.1, if_neg hname.2.2.2, hbare name] at hmissing
      cases hmissing
  | cons following names ih =>
      obtain ⟨hname, hwhole⟩ := hnames name List.mem_cons_self
      rw [cutsFrom_name hwhole] at hadmits ⊢
      obtain ⟨hfirst, hrest⟩ := hadmits
      obtain ⟨-, ⟨node, hnode, -⟩ | ⟨hmissing, hwritable⟩⟩ :=
        hfirst.cases_name hfront hname hwalk
      · rw [hbare name] at hnode
        cases hnode
      · obtain ⟨hwalk', hbare'⟩ := made_behind granted hfront hname hwalk hwritable hmissing
        rw [afterAll_cons, path_behind]
        exact ih (.inr ⟨front ++ name, rfl⟩)
          (fun component hmem => hnames component (List.mem_cons_of_mem _ hmem)) hwalk' hbare' hrest

/-- **What the loop leaves.**  Without backslashes a relative path of ordinary components names a
directory behind the loop only if it did before. -/
theorem isDirectory_of_afterAll (hfront : Resolved front)
    (hnames : ∀ component ∈ name :: names, Ordinary component ∧ Unseparated component)
    (hwalk : files.walk (files.start front) (components front) = .ok location)
    (hadmits : AdmitsAll granted files (cutsFrom front (name ++ joined names)))
    (h : (afterAll granted files (cutsFrom front (name ++ joined names))).IsDirectory
      (front ++ (name ++ joined names))) :
    files.IsDirectory (front ++ (name ++ joined names)) := by
  induction names generalizing files front name location with
  | nil =>
      obtain ⟨-, hwhole⟩ := hnames name List.mem_cons_self
      rw [joined, List.append_nil] at h ⊢
      rwa [cutsFrom_unseparated hwhole] at h
  | cons following names ih =>
      obtain ⟨hname, hwhole⟩ := hnames name List.mem_cons_self
      have hlater : ∀ component ∈ following :: names, Ordinary component ∧ Unseparated component :=
        fun component hmem => hnames component (List.mem_cons_of_mem _ hmem)
      rw [cutsFrom_name hwhole] at hadmits h
      rw [afterAll_cons, path_behind] at h
      rw [path_behind]
      obtain ⟨hfirst, hrest⟩ := hadmits
      obtain ⟨henter, ⟨node, hnode, hsame⟩ | ⟨hmissing, hwritable⟩⟩ :=
        hfirst.cases_name hfront hname hwalk
      · rw [hsame] at hrest h
        exact ih (.inr ⟨front ++ name, rfl⟩) hlater (walk_behind hfront hname hwalk henter hnode)
          hrest h
      · obtain ⟨hwalk', hbare⟩ := made_behind granted hfront hname hwalk hwritable hmissing
        exact absurd h
          (not_isDirectory_of_bare (.inr ⟨front ++ name, rfl⟩) hlater hwalk' hbare hrest)

private theorem isDirectory_of_descends (hgranted : granted.Usable) (hfront : Resolved front)
    (hordinary : ∀ component ∈ name :: names, Ordinary component)
    (hwalk : files.walk (files.start front) (components front) = .ok location)
    (hdescends : files.Descends location (name :: names)) :
    (afterAll granted files (cutsFrom front (name ++ joined names ++ [slash]))).IsDirectory
      (front ++ (name ++ joined names)) := by
  induction names generalizing files front name location with
  | nil =>
      have hname : Ordinary name := hordinary name List.mem_cons_self
      have hne : front ++ name ≠ [] := List.append_ne_nil_of_right_ne_nil front hname.1
      have hgrows := afterAll_grows granted files (cutsFrom front name)
      obtain ⟨next, hnext, hbelow⟩ := (hgrows.descends hgranted hdescends).mkdir hgranted hfront
        hname (hgrows.walk_start hwalk)
      rw [components_slash, start_append hne] at hnext
      rw [joined, List.append_nil, cutsFrom_append, cutsFrom_slash, afterAll_append]
      exact ⟨hne, next, hnext, hbelow⟩
  | cons following names ih =>
      have hname : Ordinary name := hordinary name List.mem_cons_self
      have hgrows := afterAll_grows granted files (cutsFrom front name)
      obtain ⟨next, hnext, hbelow⟩ := (hgrows.descends hgranted hdescends).mkdir hgranted hfront
        hname (hgrows.walk_start hwalk)
      -- first the backslashes in the name, then the name, then what is behind its slash
      rw [path_behind, joined, List.append_assoc, cutsFrom_append, List.cons_append, cutsFrom_slash,
        afterAll_append, afterAll_cons]
      exact ih (.inr ⟨front ++ name, rfl⟩)
        (fun component hmem => hordinary component (List.mem_cons_of_mem _ hmem)) hnext hbelow

end Components

/-- With a slash behind it a relative path that can be made is made as a whole. -/
theorem covered_slash (hrelative : leading path = false) (h : files.Makeable granted path) :
    Covered files granted (path ++ [slash]) := by
  obtain ⟨hgranted, name, names, hordinary, ⟨rfl, hdescends⟩ | ⟨rfl, -⟩⟩ := h
  · have hne : name ++ joined names ≠ [] :=
      List.append_ne_nil_of_left_ne_nil (hordinary name List.mem_cons_self).1 _
    obtain ⟨-, hwalk⟩ := isDirectory_of_descends hgranted (.inl rfl) hordinary rfl hdescends
    unfold Covered leading
    rw [List.head?_append_of_ne_nil _ hne]
    unfold leading at hrelative
    rw [hrelative, if_neg Bool.false_ne_true]
    refine fun _ => ⟨by simp, ?_⟩
    rwa [components_slash, start_append hne]
  · exact absurd hrelative (by simp [leading, joined, isSeparator])

private theorem mem_path_of_mem {name component : Text} {names : List Text} {byte : BitVec 8}
    (hcomponent : component ∈ name :: names) (hbyte : byte ∈ component) :
    byte ∈ name ++ joined names := by
  induction names generalizing name with
  | nil =>
      obtain rfl := List.mem_singleton.mp hcomponent
      exact List.mem_append_left _ hbyte
  | cons following names ih =>
      rcases List.mem_cons.mp hcomponent with rfl | hlater
      · exact List.mem_append_left _ hbyte
      · exact List.mem_append_right _ (List.mem_cons_of_mem _ (ih hlater))

/-- **Before the call.**  A relative path without backslashes that can be made is covered exactly if
it is a directory already. -/
theorem covered_iff_of_makeable (hrelative : leading path = false)
    (hbackslash : 0x5C ∉ path) (h : files.Makeable granted path) :
    Covered files granted path ↔ files.IsDirectory path := by
  refine ⟨fun hcovered => ?_, covered_of_isDirectory hrelative⟩
  have hadmits := admitsAll_makeable hrelative h
  unfold Covered at hcovered
  rw [hrelative, if_neg Bool.false_ne_true] at hcovered
  obtain ⟨-, name, names, hordinary, ⟨rfl, -⟩ | ⟨rfl, -⟩⟩ := h
  · refine isDirectory_of_afterAll (.inl rfl) (fun component hmem => ?_) rfl hadmits
      (hcovered hadmits)
    refine ⟨hordinary component hmem, fun byte hbyte => ?_⟩
    have hslash : byte ≠ slash := fun heq => (hordinary component hmem).2.1 (heq ▸ hbyte)
    have hother : byte ≠ 0x5C := fun heq => hbackslash (heq ▸ mem_path_of_mem hmem hbyte)
    rw [isSeparator, decide_eq_false hslash, decide_eq_false hother, Bool.or_self]
  · exact absurd hrelative (by simp [leading, joined, isSeparator])

end Craftd.Persistence
