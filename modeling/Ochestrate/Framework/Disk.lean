import Ochestrate.Framework.Dict
import Ochestrate.Framework.Fault
import Ochestrate.Framework.Paths

/-!
# A disk

The directories and files of one file system without links; the contents of the
files are of any type. A path is followed from the root component by component
(`walk`), through directories that exist, and ends at its normal form
(`walk_ok`). `opened` lists the files that were opened for reading or writing,
oldest first. A call that raises leaves the disk as it was.
-/

namespace Ochestrate

inductive DiskEntry (α : Type)
  | directory
  | file (content : α)
  deriving DecidableEq

/-- `refuses` are the paths that the system does not take, such as those with a
name that is too long. -/
structure Disk (α : Type) where
  entries : Dict Location (DiskEntry α) := .empty
  refuses : List String → Bool := fun _ => false
  opened : List Location := []

/-- Why a path is not opened. -/
inductive OpenError | notFound | notADirectory | isADirectory | refused
  deriving DecidableEq, Repr

/-- `str(path)` of an absolute path. -/
def pathText (path : List String) : String := "/" ++ "/".intercalate path

def OpenError.exc (path : List String) : OpenError → Exc
  | .notFound => ⟨.fileNotFoundError, "[Errno 2] No such file or directory: '" ++ pathText path ++ "'"⟩
  | .notADirectory => ⟨.osError, "[Errno 20] Not a directory: '" ++ pathText path ++ "'"⟩
  | .isADirectory => ⟨.osError, "[Errno 21] Is a directory: '" ++ pathText path ++ "'"⟩
  | .refused => ⟨.other, pathText path⟩

namespace Disk

variable {α : Type}

def isDirectory (disk : Disk α) (place : Location) : Bool :=
  match disk.entries.get? place with
  | some .directory => true
  | some (.file _) => false
  | none => place = []

/-- The content of a file. -/
def content? (disk : Disk α) (place : Location) : Option α :=
  match disk.entries.get? place with
  | some (.file content) => some content
  | _ => none

/-- Follow a path: all its components but the last lead to directories. -/
def walk (disk : Disk α) : Location → List String → Except OpenError Location
  | place, [] => .ok place
  | place, [name] => .ok (descend place name)
  | place, name :: next :: path =>
    if disk.isDirectory (descend place name) then disk.walk (descend place name) (next :: path)
    else if (disk.content? (descend place name)).isSome then .error .notADirectory
    else .error .notFound

/-- Where a path leads. -/
def locate (disk : Disk α) (path : List String) : Except OpenError Location :=
  if disk.refuses path then .error .refused else disk.walk [] path

/-- The disk after the content of a file was written. -/
def put (disk : Disk α) (place : Location) (content : α) : Disk α :=
  { disk with entries := disk.entries.set place (.file content), opened := disk.opened ++ [place] }

/-- `path.write_text(content)` -/
def writeText (path : List String) (content : α) : EStateM Exc (Disk α) PUnit := fun disk =>
  match disk.locate path with
  | .error e => .error (e.exc path) disk
  | .ok place =>
    if disk.isDirectory place then .error (OpenError.isADirectory.exc path) disk else .ok ⟨⟩ (disk.put place content)

/-- `path.read_text()` -/
def readText (path : List String) : EStateM Exc (Disk α) α := fun disk =>
  match disk.locate path with
  | .error e => .error (e.exc path) disk
  | .ok place =>
    if disk.isDirectory place then .error (OpenError.isADirectory.exc path) disk
    else
      match disk.content? place with
      | none => .error (OpenError.notFound.exc path) disk
      | some content => .ok content { disk with opened := disk.opened ++ [place] }

/-- `path.mkdir(parents=True, exist_ok=True)` -/
def makeDirs (dir : Location) : EStateM Exc (Disk α) PUnit := fun disk =>
  if dir.inits.any fun place => (disk.content? place).isSome then .error (OpenError.notADirectory.exc dir) disk
  else
    .ok ⟨⟩ { disk with
      entries := disk.entries.update ((dir.inits.filter fun place => !disk.isDirectory place).map (·, .directory)) }

/-- The names of the entries of a directory, in no order. -/
def children (disk : Disk α) (dir : Location) : List String :=
  disk.entries.keys.filterMap fun place => if place.dropLast = dir then place.getLast? else none

/-! ## What is opened -/

/-- A call that writes the path would open a file. -/
def canWrite (disk : Disk α) (path : List String) : Bool :=
  match disk.locate path with
  | .error _ => false
  | .ok place => !disk.isDirectory place

/-- A call that reads the path would open a file. -/
def canRead (disk : Disk α) (path : List String) : Bool :=
  match disk.locate path with
  | .error _ => false
  | .ok place => !disk.isDirectory place && (disk.content? place).isSome

variable {disk : Disk α}

theorem walk_ok {path : List String} {base place : Location} (h : disk.walk base path = .ok place) :
    place = path.foldl descend base := by
  induction path generalizing base with
  | nil => exact (Except.ok.inj h).symm
  | cons name path ih =>
    cases path with
    | nil => exact (Except.ok.inj h).symm
    | cons next path =>
      rw [walk] at h
      split at h
      · exact ih h
      · split at h <;> cases h

theorem locate_ok {path : List String} {place : Location} (h : disk.locate path = .ok place) :
    place = normalise path := by
  unfold locate at h
  split at h
  · cases h
  · exact walk_ok h

theorem opened_writeText (path : List String) (content : α) :
    (finalState (writeText path content disk)).opened =
      disk.opened ++ if disk.canWrite path then [normalise path] else [] := by
  unfold writeText canWrite
  cases hplace : disk.locate path with
  | error e => simp
  | ok place =>
    obtain rfl := locate_ok hplace
    cases hdir : disk.isDirectory (normalise path) <;> simp [hdir, put]

theorem opened_readText (path : List String) :
    (finalState (readText path disk)).opened = disk.opened ++ if disk.canRead path then [normalise path] else [] := by
  unfold readText canRead
  cases hplace : disk.locate path with
  | error e => simp
  | ok place =>
    obtain rfl := locate_ok hplace
    cases hdir : disk.isDirectory (normalise path) <;> cases hcontent : disk.content? (normalise path) <;>
      simp [hdir, hcontent]

/-! ## Files of a directory -/

/-- A path of names through directories leads to its last name. -/
theorem walk_names {base path : Location} {name : String} (hname : name ≠ "..") (hpath : ".." ∉ path)
    (hdirs : ∀ names, names ≠ [] → names <+: path → disk.isDirectory (base ++ names) = true) :
    disk.walk base (path ++ [name]) = .ok (base ++ (path ++ [name])) := by
  induction path generalizing base with
  | nil => exact congrArg Except.ok (if_neg hname)
  | cons first path ih =>
    rw [List.mem_cons, not_or] at hpath
    have hfirst : descend base first = base ++ [first] := if_neg (Ne.symm hpath.1)
    have hrest : ∀ names, names ≠ [] → names <+: path → disk.isDirectory (base ++ [first] ++ names) = true := by
      intro names _ hprefix
      rw [List.append_assoc]
      exact hdirs (first :: names) (by simp) ((List.prefix_cons_inj first).2 hprefix)
    have hstep : disk.walk base (first :: (path ++ [name])) = disk.walk (base ++ [first]) (path ++ [name]) := by
      obtain ⟨next, rest, hnext⟩ := List.exists_cons_of_ne_nil (l := path ++ [name]) (by simp)
      rw [hnext, walk, hfirst, if_pos (hdirs [first] (by simp) (by simp))]
    rw [List.cons_append, hstep, ih hpath.2 hrest]
    simp

/-- The directory exists, with all the directories above it. -/
def Ready (disk : Disk α) (dir : Location) : Prop :=
  ".." ∉ dir ∧ ∀ place, place <+: dir → disk.isDirectory place = true

theorem Ready.locate {dir : Location} (h : disk.Ready dir) {name : String} (hname : name ≠ "..") :
    disk.locate (dir ++ [name]) =
      if disk.refuses (dir ++ [name]) then .error .refused else .ok (dir ++ [name]) := by
  unfold Disk.locate
  have hwalk : disk.walk [] (dir ++ [name]) = .ok ([] ++ (dir ++ [name])) :=
    walk_names hname h.1 fun names _ hprefix => h.2 names hprefix
  rw [hwalk]
  rfl

/-- A file of the directory is written. -/
theorem Ready.writeText {dir : Location} (h : disk.Ready dir) {name : String} (hname : name ≠ "..")
    (hfile : disk.isDirectory (dir ++ [name]) = false) (content : α) :
    Disk.writeText (dir ++ [name]) content disk =
      if disk.refuses (dir ++ [name]) then .error (OpenError.refused.exc (dir ++ [name])) disk
      else .ok ⟨⟩ (disk.put (dir ++ [name]) content) := by
  unfold Disk.writeText
  rw [h.locate hname]
  cases disk.refuses (dir ++ [name]) with
  | true => rfl
  | false => simp only [Bool.false_eq_true, ↓reduceIte, hfile]

theorem Ready.readText {dir : Location} (h : disk.Ready dir) {name : String} (hname : name ≠ "..")
    (hfile : disk.isDirectory (dir ++ [name]) = false) :
    Disk.readText (dir ++ [name]) disk =
      if disk.refuses (dir ++ [name]) then .error (OpenError.refused.exc (dir ++ [name])) disk
      else
        match disk.content? (dir ++ [name]) with
        | none => .error (OpenError.notFound.exc (dir ++ [name])) disk
        | some content => .ok content { disk with opened := disk.opened ++ [dir ++ [name]] } := by
  unfold Disk.readText
  rw [h.locate hname]
  cases disk.refuses (dir ++ [name]) with
  | true => rfl
  | false => simp only [Bool.false_eq_true, ↓reduceIte, hfile]

/-- The entries of a directory by their paths. -/
theorem mem_children {dir : Location} {name : String} :
    name ∈ disk.children dir ↔ (disk.entries.get? (dir ++ [name])).isSome := by
  have hplace : ∀ place : Location, place.dropLast = dir ∧ place.getLast? = some name ↔ place = dir ++ [name] := by
    intro place
    constructor
    · rintro ⟨rfl, hlast⟩
      exact (List.dropLast_append_getLast? name hlast).symm
    · rintro rfl
      exact ⟨List.dropLast_concat, List.getLast?_concat⟩
  simp only [children, List.mem_filterMap, Option.ite_none_right_eq_some, hplace, exists_eq_right, Dict.mem_keys]

theorem content?_put (disk : Disk α) (place place' : Location) (content : α) :
    (disk.put place content).content? place' = if place' = place then some content else disk.content? place' := by
  simp only [content?, put, Dict.get?_set]
  by_cases h : place' = place
  · simp [h]
  · simp [h]

theorem isDirectory_put (disk : Disk α) (place place' : Location) (content : α) :
    (disk.put place content).isDirectory place' = if place' = place then false else disk.isDirectory place' := by
  simp only [isDirectory, put, Dict.get?_set]
  by_cases h : place' = place
  · simp [h]
  · simp [h]

theorem Ready.put {dir : Location} (h : disk.Ready dir) (name : String) (content : α) :
    (disk.put (dir ++ [name]) content).Ready dir := by
  refine ⟨h.1, fun place hprefix => ?_⟩
  rw [isDirectory_put, if_neg]
  · exact h.2 place hprefix
  · rintro rfl
    have hle := hprefix.length_le
    rw [List.length_append, List.length_singleton] at hle
    omega

end Disk

end Ochestrate
