import Mathlib.Data.List.Infix
import Ochestrate.Framework.Along
import Ochestrate.Framework.Dict
import Ochestrate.Framework.Text

/-!
# Files of bytes

A file system without links, call by call: a directory is made, a file is
opened and thereby emptied, bytes are written. The system may refuse a call,
and the device may fail in a write that has begun. `calls` lists the calls that
went through, oldest first; `Acts P` says that a program makes only calls that
satisfy `P` and touches nothing else. `writeText_cases` and `makeDirs_spec` say
what is left of a write and of a chain of new directories that fails.
-/

namespace Ochestrate

/-- The names on the way from the root. -/
abbrev Place := List Text

namespace Place

def separator : CodePoint := .scalar '/'

def dot : CodePoint := .scalar '.'

/-- The components of a path text, without empty ones and `.`. -/
def components (t : Text) : List Text := (t.splitOn separator).filter fun name => name ≠ [] && name ≠ [dot]

def isAbsolute (t : Text) : Bool := t.head? = some separator

/-- `base / t`: an absolute text replaces the base. -/
def join (base : Place) (t : Text) : List Text := if isAbsolute t then components t else base ++ components t

/-- One component further; there is nothing above the root. -/
def descend (place : Place) (name : Text) : Place := if name = [dot, dot] then place.dropLast else place ++ [name]

/-- `path.resolve()` -/
def resolve (path : List Text) : Place := path.foldl descend []

/-- The system has bytes for the text: no zero, and of the surrogates only those
that stand for a byte. -/
def encodable (t : Text) : Bool :=
  t.all fun
    | .scalar c => c.toNat ≠ 0
    | .surrogate n => 0x480 ≤ n.val && n.val ≤ 0x4ff

/-- `path.name` -/
def name (place : Place) : Text := place.getLast?.getD []

/-- What follows the last dot of a name. -/
def extension (name : Text) : Text := (name.reverse.takeWhile (· ≠ dot)).reverse

/-- `path.suffix`; a dot that begins or ends the name makes none. -/
def suffix (place : Place) : Text :=
  let ext := extension place.name
  if 0 < place.name.length - ext.length - 1 ∧ ext ≠ [] then dot :: ext else []

/-- `path.stem` -/
def stem (place : Place) : Text := place.name.take (place.name.length - place.suffix.length)

/-- `str(path)` -/
def toText (place : Place) : Text := separator :: [separator].intercalate place

/-- Every component is a name. -/
def Normal (place : Place) : Prop :=
  ∀ name ∈ place, name ≠ [] ∧ name ≠ [dot] ∧ name ≠ [dot, dot] ∧ separator ∉ name

theorem separator_notMem_of_mem_splitOn {t name : Text} (h : name ∈ t.splitOn separator) : separator ∉ name := by
  induction t generalizing name with
  | nil =>
    rw [List.splitOn_nil, List.mem_singleton] at h
    simp [h]
  | cons c t ih =>
    rw [List.splitOn_cons_eq_if_modifyHead] at h
    split at h
    · obtain rfl | h := List.mem_cons.1 h
      · simp
      · exact ih h
    · next hc =>
      cases hsplit : t.splitOn separator with
      | nil => exact absurd hsplit (List.splitOn_ne_nil _ _)
      | cons first rest =>
        rw [hsplit] at h ih
        rw [List.modifyHead_cons] at h
        obtain rfl | h := List.mem_cons.1 h
        · have hne : separator ≠ c := fun heq => hc (beq_iff_eq.2 heq.symm)
          simp [hne, ih (List.mem_cons_self ..)]
        · exact ih (List.mem_cons_of_mem _ h)

/-- A component is a name, or `..`. -/
theorem components_spec {t name : Text} (h : name ∈ components t) :
    name ≠ [] ∧ name ≠ [dot] ∧ separator ∉ name := by
  obtain ⟨hmem, hne⟩ := List.mem_filter.1 h
  have hne : name ≠ [] ∧ name ≠ [dot] := by simpa using hne
  exact ⟨hne.1, hne.2, separator_notMem_of_mem_splitOn hmem⟩

theorem Normal.descend {place : Place} (h : Normal place) {name : Text}
    (hname : name ≠ [] ∧ name ≠ [dot] ∧ separator ∉ name) : Normal (place.descend name) := by
  unfold Place.descend
  split
  · exact fun name hmem => h name (List.mem_of_mem_dropLast hmem)
  · next hdots =>
    intro name' hmem
    obtain hmem | hmem := List.mem_append.1 hmem
    · exact h name' hmem
    · rw [List.mem_singleton.1 hmem]
      exact ⟨hname.1, hname.2.1, hdots, hname.2.2⟩

theorem Normal.foldl_descend {place : Place} (h : Normal place) {path : List Text}
    (hpath : ∀ name ∈ path, name ≠ [] ∧ name ≠ [dot] ∧ separator ∉ name) : Normal (path.foldl Place.descend place) := by
  induction path generalizing place with
  | nil => exact h
  | cons name path ih =>
    exact ih (h.descend (hpath name (List.mem_cons_self ..))) fun name hmem => hpath name (List.mem_cons_of_mem _ hmem)

/-- Where a text leads from a place of names is a place of names. -/
theorem Normal.resolve_join {base : Place} (h : Normal base) (t : Text) : Normal (resolve (join base t)) := by
  have hnil : Normal ([] : Place) := fun _ hmem => absurd hmem List.not_mem_nil
  refine hnil.foldl_descend fun name hmem => ?_
  unfold join at hmem
  split at hmem
  · exact components_spec hmem
  · obtain hmem | hmem := List.mem_append.1 hmem
    · exact ⟨(h name hmem).1, (h name hmem).2.1, (h name hmem).2.2.2⟩
    · exact components_spec hmem

/-- Names lead where they say. -/
theorem foldl_descend_of_normal {path : List Text} (h : Normal path) (place : Place) :
    path.foldl descend place = place ++ path := by
  induction path generalizing place with
  | nil => exact (List.append_nil place).symm
  | cons name path ih =>
    rw [List.foldl_cons, ih fun name hmem => h name (List.mem_cons_of_mem _ hmem), descend,
      if_neg (h name (List.mem_cons_self ..)).2.2.1, List.append_assoc]
    rfl

theorem Normal.resolve_eq {place : Place} (h : Normal place) : resolve place = place :=
  foldl_descend_of_normal h []

end Place

/-- A text in a message; a surrogate is shown as the replacement character. -/
def Text.shown (t : Text) : String := .ofList (t.map fun c => c.char?.getD '\uFFFD')

inductive FileNode
  | directory
  | file (bytes : List UInt8)
  deriving DecidableEq

/-- What a program asks of the file system. -/
inductive FileCall
  | read (place : Place)
  | write (place : Place)
  | list (place : Place)
  | makeDirectory (place : Place)
  | remove (place : Place)
  deriving DecidableEq

def FileCall.place : FileCall → Place
  | read place | write place | list place | makeDirectory place | remove place => place

/-- `refuses` are the calls that the system does not take; `device` is how
writing bytes to an open file fails, with the bytes that have reached it. -/
structure FileSystem where
  nodes : Dict Place FileNode := .empty
  refuses : FileCall → Option Exc := fun _ => none
  device : Place → List UInt8 → Option (Exc × List UInt8) := fun _ _ => none
  directorySize : Place → Nat := fun _ => 4096
  calls : List FileCall := []

namespace FileSystem

/-- What is at a place. -/
def node? (fs : FileSystem) (place : Place) : Option FileNode :=
  if place = [] then some .directory else fs.nodes.get? place

def isDirectory (fs : FileSystem) (place : Place) : Bool := fs.node? place = some .directory

/-- `os.path.getsize(path)` -/
def sizeOf (fs : FileSystem) (place : Place) : FileNode → Nat
  | .directory => fs.directorySize place
  | .file bytes => bytes.length

def set (fs : FileSystem) (place : Place) (node : FileNode) : FileSystem := { fs with nodes := fs.nodes.set place node }

/-- An `OSError` of a system call. -/
def osError (type : ExcType) (message : String) (place : Place) : Exc :=
  ⟨type, message ++ ": '" ++ place.toText.shown ++ "'"⟩

def notFound (place : Place) : Exc := osError .fileNotFoundError "[Errno 2] No such file or directory" place

def fileExists (place : Place) : Exc := osError .osError "[Errno 17] File exists" place

def notADirectory (place : Place) : Exc := osError .osError "[Errno 20] Not a directory" place

def isADirectory (place : Place) : Exc := osError .osError "[Errno 21] Is a directory" place

/-- A call that the system takes. -/
def call (c : FileCall) : EStateM Exc FileSystem PUnit := fun fs =>
  match fs.refuses c with
  | some exc => .error exc fs
  | none => .ok ⟨⟩ { fs with calls := fs.calls ++ [c] }

/-- `path.mkdir(exist_ok=True)` -/
def makeDirectory (place : Place) : EStateM Exc FileSystem PUnit := do
  match (← get).node? place with
  | some .directory => return ⟨⟩
  | some (.file _) => throw (fileExists place)
  | none =>
    call (.makeDirectory place)
    modify fun fs => fs.set place .directory

/-- `path.mkdir(parents=True, exist_ok=True)`: the directories that are missing
are made from the top down. -/
def makeDirs (dir : Place) : EStateM Exc FileSystem PUnit := dir.inits.forM makeDirectory

/-- `open(path, "w")`: a new file, or the file that is there without its
content. -/
def openForWriting (place : Place) : EStateM Exc FileSystem PUnit := do
  let fs ← get
  match fs.node? place.dropLast, fs.node? place with
  | none, _ => throw (notFound place)
  | some (.file _), _ => throw (notADirectory place)
  | some .directory, some .directory => throw (isADirectory place)
  | some .directory, _ =>
    call (.write place)
    modify fun fs => fs.set place (.file [])

/-- The bytes go to an open file. -/
def writeBytes (place : Place) (bytes : List UInt8) : EStateM Exc FileSystem PUnit := fun fs =>
  match fs.device place bytes with
  | none => .ok ⟨⟩ (fs.set place (.file bytes))
  | some (exc, written) => .error exc (fs.set place (.file written))

def unicodeEncodeError : Exc := ⟨.valueError, "'utf-8' codec can't encode character: surrogates not allowed"⟩

def unicodeDecodeError : Exc := ⟨.valueError, "'utf-8' codec can't decode byte: invalid byte"⟩

/-- `path.write_text(t, encoding="utf-8")`: the text is encoded once the file
is open. -/
def writeText (place : Place) (t : Text) : EStateM Exc FileSystem PUnit := do
  openForWriting place
  match encodeUtf8 t with
  | none => throw unicodeEncodeError
  | some bytes => writeBytes place bytes

/-- `open(path, "rb").read()` -/
def readBytes (place : Place) : EStateM Exc FileSystem (List UInt8) := do
  match (← get).node? place with
  | none => throw (notFound place)
  | some .directory => throw (isADirectory place)
  | some (.file bytes) =>
    call (.read place)
    return bytes

/-- `path.read_text(encoding="utf-8")` -/
def readText (place : Place) : EStateM Exc FileSystem Text := do
  match decodeUtf8 (← readBytes place) with
  | none => throw unicodeDecodeError
  | some t => return translateNewlines t

/-- `path.read_text(encoding="utf-8", errors="ignore")` -/
def readTextIgnoring (place : Place) : EStateM Exc FileSystem Text := do
  return translateNewlines (decodeIgnoring (← readBytes place))

/-- What a library finds at a path that it opens. -/
def readNode (place : Place) : EStateM Exc FileSystem FileNode := do
  match (← get).node? place with
  | none => throw (notFound place)
  | some node =>
    call (.read place)
    return node

/-- `os.unlink(path)` or `os.rmdir(path)` -/
def remove (place : Place) : EStateM Exc FileSystem PUnit := do
  call (.remove place)
  modify fun fs => { fs with nodes := fs.nodes.erase place }

/-- The names of `path.iterdir()`, in no order. -/
def iterdir (place : Place) : EStateM Exc FileSystem (List Text) := do
  call (.list place)
  return (← get).nodes.keys.filterMap fun p => if p.dropLast = place then p.getLast? else none

/-! ## What a program does to the files -/

section Acts

variable {fs fs' fs'' : FileSystem} {P P' : FileCall → Prop}

/-- Between two states: all calls satisfy `P`, and nothing changes at a place
that no call is about. -/
def Acts (P : FileCall → Prop) (fs fs' : FileSystem) : Prop :=
  ∃ calls, fs'.calls = fs.calls ++ calls ∧ (∀ c ∈ calls, P c) ∧
    ∀ place, fs'.node? place ≠ fs.node? place → ∃ c ∈ calls, c.place = place

theorem Acts.refl (fs : FileSystem) : Acts P fs fs :=
  ⟨[], (List.append_nil _).symm, by simp, fun _ h => absurd rfl h⟩

theorem Acts.trans (h : Acts P fs fs') (h' : Acts P fs' fs'') : Acts P fs fs'' := by
  obtain ⟨calls, hcalls, hp, hnodes⟩ := h
  obtain ⟨calls', hcalls', hp', hnodes'⟩ := h'
  refine ⟨calls ++ calls', by rw [hcalls', hcalls, List.append_assoc], fun c hc => ?_, fun place hne => ?_⟩
  · exact (List.mem_append.1 hc).elim (hp c) (hp' c)
  · by_cases heq : fs''.node? place = fs'.node? place
    · obtain ⟨c, hc, hplace⟩ := hnodes place (heq ▸ hne)
      exact ⟨c, List.mem_append_left _ hc, hplace⟩
    · obtain ⟨c, hc, hplace⟩ := hnodes' place heq
      exact ⟨c, List.mem_append_right _ hc, hplace⟩

theorem Acts.mono (h : Acts P fs fs') (hp : ∀ c, P c → P' c) : Acts P' fs fs' := by
  obtain ⟨calls, hcalls, hall, hnodes⟩ := h
  exact ⟨calls, hcalls, fun c hc => hp c (hall c hc), hnodes⟩

/-- One call about a place at which something may change. -/
theorem Acts.one {c : FileCall} (hc : P c) (hcalls : fs'.calls = fs.calls ++ [c])
    (hnodes : ∀ place, place ≠ c.place → fs'.node? place = fs.node? place) : Acts P fs fs' := by
  refine ⟨[c], hcalls, by simpa using hc, fun place hne => ⟨c, by simp, ?_⟩⟩
  by_contra hplace
  exact hne (hnodes place (Ne.symm hplace))

theorem node?_set_ne (fs : FileSystem) {place p : Place} (h : p ≠ place) (node : FileNode) :
    (fs.set place node).node? p = fs.node? p := by
  unfold node? set
  rw [Dict.get?_set_ne _ _ h]

theorem node?_set (fs : FileSystem) {place : Place} (hne : place ≠ []) (node : FileNode) (p : Place) :
    (fs.set place node).node? p = if p = place then some node else fs.node? p := by
  unfold node?
  by_cases hp : p = place
  · rw [if_neg (hp ▸ hne), if_pos hp, set, Dict.get?_set, if_pos hp]
  · rw [if_neg hp, set, Dict.get?_set, if_neg hp]

theorem call_ok {c : FileCall} (h : fs.refuses c = none) :
    call c fs = .ok ⟨⟩ { fs with calls := fs.calls ++ [c] } := by
  simp only [call, h]

theorem call_error {c : FileCall} {exc : Exc} (h : fs.refuses c = some exc) : call c fs = .error exc fs := by
  simp only [call, h]

theorem call_acts {c : FileCall} (hc : P c) : Along (Acts P) (call c) (fun _ => True) := by
  intro fs
  cases h : fs.refuses c with
  | none =>
    rw [call_ok h]
    exact ⟨.one hc rfl fun _ _ => rfl, trivial⟩
  | some exc =>
    rw [call_error h]
    exact .refl fs

/-- A call and its effect. -/
theorem effect_acts {c : FileCall} (hc : P c) {f : FileSystem → FileSystem} (hcalls : ∀ fs, (f fs).calls = fs.calls)
    (hnodes : ∀ fs place, place ≠ c.place → (f fs).node? place = fs.node? place) :
    Along (Acts P) (do call c; modify f) (fun _ => True) := by
  intro fs
  cases h : fs.refuses c with
  | none =>
    rw [bind_ok (call_ok h)]
    exact ⟨.one hc (hcalls _) (hnodes _), trivial⟩
  | some exc =>
    rw [bind_error (call_error h)]
    exact .refl fs

/-! ### New directories -/

/-- A directory more. -/
def made (fs : FileSystem) (place : Place) : FileSystem :=
  { fs.set place .directory with calls := fs.calls ++ [.makeDirectory place] }

/-- The place is not a directory and cannot become one. -/
def obstructed (fs : FileSystem) (place : Place) : Bool :=
  match fs.node? place with
  | some .directory => false
  | some (.file _) => true
  | none => (fs.refuses (.makeDirectory place)).isSome

/-- The places that become directories, up to the first that cannot. -/
def missing (fs : FileSystem) : List Place → List Place
  | [] => []
  | place :: places =>
    if fs.obstructed place then []
    else if fs.isDirectory place then missing fs places
    else place :: missing fs places

theorem node?_made {place : Place} (hne : place ≠ []) (p : Place) :
    (fs.made place).node? p = if p = place then some .directory else fs.node? p :=
  node?_set fs hne .directory p

theorem obstructed_made {place p : Place} (hne : place ≠ []) (hp : p ≠ place) :
    (fs.made place).obstructed p = fs.obstructed p := by
  unfold obstructed
  rw [node?_made hne, if_neg hp]
  rfl

theorem missing_made {place : Place} (hne : place ≠ []) {places : List Place} (hplaces : place ∉ places) :
    (fs.made place).missing places = fs.missing places := by
  induction places with
  | nil => rfl
  | cons p places ih =>
    obtain ⟨hp, hrest⟩ := not_or.1 (fun hor => hplaces (List.mem_cons.2 hor))
    rw [missing, missing, obstructed_made hne (Ne.symm hp), isDirectory, node?_made hne, if_neg (Ne.symm hp), ih hrest]
    rfl

/-- What becomes a directory was not there. -/
theorem node?_of_mem_missing {place : Place} {places : List Place} (h : place ∈ fs.missing places) :
    place ∈ places ∧ fs.node? place = none := by
  induction places with
  | nil => cases h
  | cons p places ih =>
    rw [missing] at h
    split at h
    · cases h
    · next hclear =>
      split at h
      · exact ⟨List.mem_cons_of_mem _ (ih h).1, (ih h).2⟩
      · next hdirectory =>
        obtain rfl | h := List.mem_cons.1 h
        · refine ⟨List.mem_cons_self .., ?_⟩
          unfold obstructed at hclear
          unfold isDirectory at hdirectory
          cases hnode : fs.node? place with
          | none => rfl
          | some node =>
            rw [hnode] at hclear hdirectory
            cases node with
            | directory => simp at hdirectory
            | file => simp at hclear
        · exact ⟨List.mem_cons_of_mem _ (ih h).1, (ih h).2⟩

theorem makeDirectory_cases (fs : FileSystem) (place : Place) :
    (fs.obstructed place = true ∧ ∃ exc, makeDirectory place fs = .error exc fs) ∨
      (fs.obstructed place = false ∧ fs.isDirectory place = true ∧ makeDirectory place fs = .ok ⟨⟩ fs) ∨
      (fs.obstructed place = false ∧ fs.isDirectory place = false ∧
        makeDirectory place fs = .ok ⟨⟩ (fs.made place)) := by
  unfold makeDirectory obstructed isDirectory
  rw [get_bind]
  cases hnode : fs.node? place with
  | some node =>
    cases node with
    | directory => exact .inr (.inl ⟨rfl, by simp, rfl⟩)
    | file bytes => exact .inl ⟨rfl, _, rfl⟩
  | none =>
    cases hrefuses : fs.refuses (.makeDirectory place) with
    | some exc => exact .inl ⟨rfl, exc, bind_error (call_error hrefuses) _⟩
    | none => exact .inr (.inr ⟨rfl, by simp, bind_ok (call_ok hrefuses) _⟩)

/-- The loop over different places makes those that are missing, and returns if
no place is obstructed. -/
theorem forM_makeDirectory {places : List Place} (hnodup : places.Nodup) (fs : FileSystem) :
    finalState (places.forM makeDirectory fs) = (fs.missing places).foldl made fs ∧
      (returned (places.forM makeDirectory fs) = true ↔ ∀ place ∈ places, fs.obstructed place = false) := by
  induction places generalizing fs with
  | nil => exact ⟨rfl, fun _ _ hmem => absurd hmem List.not_mem_nil, fun _ => rfl⟩
  | cons place places ih =>
    obtain ⟨hnotMem, hrest⟩ := List.nodup_cons.1 hnodup
    have hcons : (place :: places).forM makeDirectory = (makeDirectory place >>= fun _ => places.forM makeDirectory) := rfl
    rw [hcons, List.forall_mem_cons, missing]
    obtain ⟨hobstructed, exc, herror⟩ | ⟨hclear, hdirectory, hok⟩ | ⟨hclear, hdirectory, hok⟩ :=
      makeDirectory_cases fs place
    · rw [bind_error herror, hobstructed]
      simp
    · rw [bind_ok hok, hclear, hdirectory]
      simpa using ih hrest fs
    · have hne : place ≠ [] := by
        rintro rfl
        simp [isDirectory, node?] at hdirectory
      obtain ⟨hfinal, hreturned⟩ := ih hrest (fs.made place)
      rw [missing_made hne hnotMem] at hfinal
      rw [bind_ok hok, hclear, hdirectory, hfinal, hreturned]
      refine ⟨rfl, ?_⟩
      simp only [true_and]
      refine forall₂_congr fun p hp => ?_
      rw [obstructed_made hne fun heq => hnotMem (heq ▸ hp)]

theorem nodup_inits {α : Type} (xs : List α) : xs.inits.Nodup := by
  induction xs with
  | nil => simp
  | cons x xs ih =>
    rw [List.inits_cons, List.nodup_cons]
    refine ⟨by simp, ih.map fun ys zs heq => ?_⟩
    exact (List.cons.inj heq).2

/-- A chain of directories: those that are missing are made, up to the first
that cannot be. -/
theorem makeDirs_spec (dir : Place) (fs : FileSystem) :
    finalState (makeDirs dir fs) = (fs.missing dir.inits).foldl made fs ∧
      (returned (makeDirs dir fs) = true ↔ ∀ place ∈ dir.inits, fs.obstructed place = false) :=
  forM_makeDirectory (nodup_inits dir) fs

section Made

variable {places : List Place}

theorem node?_foldl_made (h : [] ∉ places) (fs : FileSystem) (p : Place) :
    (places.foldl made fs).node? p = if p ∈ places then some .directory else fs.node? p := by
  induction places generalizing fs with
  | nil => simp
  | cons place places ih =>
    obtain ⟨hne, hrest⟩ := not_or.1 (fun hor => h (List.mem_cons.2 hor))
    rw [List.foldl_cons, ih hrest, node?_made (Ne.symm hne)]
    by_cases hp : p ∈ places
    · simp [hp]
    · by_cases heq : p = place <;> simp [hp, heq]

theorem foldl_made (places : List Place) (fs : FileSystem) :
    (places.foldl made fs).calls = fs.calls ++ places.map .makeDirectory ∧
      (places.foldl made fs).refuses = fs.refuses ∧ (places.foldl made fs).device = fs.device := by
  induction places generalizing fs with
  | nil => exact ⟨(List.append_nil _).symm, rfl, rfl⟩
  | cons place places ih =>
    obtain ⟨hcalls, hrefuses, hdevice⟩ := ih (fs.made place)
    exact ⟨by rw [List.foldl_cons, hcalls, made, List.append_assoc]; rfl, hrefuses, hdevice⟩

/-- Where nothing is obstructed, all that was no directory becomes one. -/
theorem mem_missing_of_clear {places : List Place} (h : ∀ place ∈ places, fs.obstructed place = false) {place : Place}
    (hmem : place ∈ places) (hdirectory : fs.isDirectory place = false) : place ∈ fs.missing places := by
  induction places with
  | nil => cases hmem
  | cons p places ih =>
    obtain ⟨hp, hrest⟩ := List.forall_mem_cons.1 h
    rw [missing, hp]
    simp only [Bool.false_eq_true, ↓reduceIte]
    obtain rfl | hmem := List.mem_cons.1 hmem
    · simp [hdirectory]
    · split
      · exact ih hrest hmem
      · exact List.mem_cons_of_mem _ (ih hrest hmem)

theorem root_notMem_missing (fs : FileSystem) (places : List Place) : [] ∉ fs.missing places := fun hmem => by
  have hnode := (node?_of_mem_missing hmem).2
  simp [node?] at hnode

/-- The state in which the directories of the chain are there. -/
theorem node?_madeAll (dir : Place) (fs : FileSystem) (p : Place) :
    ((fs.missing dir.inits).foldl made fs).node? p = if p ∈ fs.missing dir.inits then some .directory else fs.node? p :=
  node?_foldl_made (root_notMem_missing _ _) fs p

theorem isDirectory_madeAll {dir : Place} (h : ∀ place ∈ dir.inits, fs.obstructed place = false) :
    ((fs.missing dir.inits).foldl made fs).isDirectory dir = true := by
  unfold isDirectory
  rw [node?_madeAll]
  cases hdirectory : fs.isDirectory dir with
  | true =>
    unfold isDirectory at hdirectory
    rw [of_decide_eq_true hdirectory, ite_self]
    rfl
  | false =>
    have hself : dir ∈ dir.inits := (List.mem_inits _ _).2 List.prefix_rfl
    rw [if_pos (mem_missing_of_clear h hself hdirectory)]
    rfl

/-- Nothing is missing exactly if no directory is made. -/
theorem madeAll_eq_iff (dir : Place) (fs : FileSystem) :
    (∀ p, ((fs.missing dir.inits).foldl made fs).node? p = fs.node? p) ↔ fs.missing dir.inits = [] := by
  constructor
  · intro h
    refine List.eq_nil_iff_forall_not_mem.2 fun p hp => ?_
    have hnode := h p
    rw [node?_madeAll, if_pos hp, (node?_of_mem_missing hp).2] at hnode
    cases hnode
  · intro h p
    rw [h]
    rfl

/-- Nothing is done but to make the directories of the chain that are missing. -/
theorem makeDirs_acts (dir : Place) (fs : FileSystem) :
    Acts (fun c => ∃ place, c = .makeDirectory place ∧ place <+: dir ∧ fs.node? place = none) fs
      (finalState (makeDirs dir fs)) := by
  rw [(makeDirs_spec dir fs).1]
  refine ⟨_, (foldl_made _ fs).1, fun c hc => ?_, fun place hne => ?_⟩
  · obtain ⟨place, hplace, rfl⟩ := List.mem_map.1 hc
    obtain ⟨hmem, hnode⟩ := node?_of_mem_missing hplace
    exact ⟨place, rfl, (List.mem_inits _ _).1 hmem, hnode⟩
  · rw [node?_madeAll] at hne
    split at hne
    · next hmem => exact ⟨_, List.mem_map_of_mem hmem, rfl⟩
    · exact absurd rfl hne

end Made

/-! ### Texts -/

/-- A file can be opened in the directory. -/
def openable (fs : FileSystem) (place : Place) : Bool :=
  fs.isDirectory place.dropLast && !fs.isDirectory place && (fs.refuses (.write place)).isNone

/-- What a file holds once writing a text has failed. -/
def leftover (fs : FileSystem) (place : Place) (t : Text) : Option (List UInt8) :=
  match encodeUtf8 t with
  | none => some []
  | some bytes => (fs.device place bytes).map (·.2)

/-- A file holds the bytes, and one call has been made. -/
structure Wrote (place : Place) (bytes : List UInt8) (fs fs' : FileSystem) : Prop where
  nodes : ∀ p, fs'.node? p = if p = place then some (.file bytes) else fs.node? p
  calls : fs'.calls = fs.calls ++ [.write place]
  refuses : fs'.refuses = fs.refuses
  device : fs'.device = fs.device

/-- The file is open and empty. -/
def opened (fs : FileSystem) (place : Place) : FileSystem :=
  { fs.set place (.file []) with calls := fs.calls ++ [.write place] }

/-- What is put into an open file replaces what is there. -/
theorem node?_opened_set (fs : FileSystem) {place : Place} (hne : place ≠ []) (content : List UInt8) (p : Place) :
    ((fs.opened place).set place (.file content)).node? p = if p = place then some (.file content) else fs.node? p := by
  by_cases hp : p = place
  · rw [node?_set _ hne, if_pos hp, if_pos hp]
  · rw [node?_set_ne _ hp, if_neg hp]
    exact node?_set_ne fs hp _

theorem opened_set_acts {place : Place} (hp : P (.write place)) (content : List UInt8) :
    Acts P fs ((fs.opened place).set place (.file content)) :=
  .one hp rfl fun _ hne => (node?_set_ne _ hne _).trans (node?_set_ne fs hne _)

theorem openForWriting_cases (place : Place) (fs : FileSystem) :
    (fs.openable place = false ∧ ∃ exc, openForWriting place fs = .error exc fs) ∨
      (fs.openable place = true ∧ place ≠ [] ∧ openForWriting place fs = .ok ⟨⟩ (fs.opened place)) := by
  unfold openForWriting openable isDirectory
  rw [get_bind]
  cases hparent : fs.node? place.dropLast with
  | none => exact .inl ⟨by simp, _, rfl⟩
  | some parent =>
    cases parent with
    | file bytes => exact .inl ⟨by simp, _, rfl⟩
    | directory =>
      cases hrefuses : fs.refuses (.write place) with
      | some exc =>
        refine .inl ⟨by simp, ?_⟩
        rcases hnode : fs.node? place with _ | (_ | bytes)
        · exact ⟨exc, bind_error (call_error hrefuses) _⟩
        · exact ⟨_, rfl⟩
        · exact ⟨exc, bind_error (call_error hrefuses) _⟩
      | none =>
        rcases hnode : fs.node? place with _ | (_ | bytes)
        · refine .inr ⟨by simp, ?_, bind_ok (call_ok hrefuses) _⟩
          rintro rfl
          simp [node?] at hnode
        · exact .inl ⟨by simp, _, rfl⟩
        · refine .inr ⟨by simp, ?_, bind_ok (call_ok hrefuses) _⟩
          rintro rfl
          simp [node?] at hnode

theorem writeBytes_final (place : Place) (bytes : List UInt8) (fs : FileSystem) :
    ∃ content, finalState (writeBytes place bytes fs) = fs.set place (.file content) := by
  unfold writeBytes
  split
  · exact ⟨bytes, rfl⟩
  · exact ⟨_, rfl⟩

/-- How writing a text goes: the file is not opened, the bytes are not all
written, or they are. -/
inductive TextWritten (place : Place) (t : Text) (fs : FileSystem) : EStateM.Result Exc FileSystem PUnit → Prop
  | refused {exc : Exc} (hopen : fs.openable place = false) : TextWritten place t fs (.error exc fs)
  | failed {exc : Exc} {left : List UInt8} {fs' : FileSystem} (hopen : fs.openable place = true)
      (hleft : fs.leftover place t = some left) (hwrote : Wrote place left fs fs') :
      TextWritten place t fs (.error exc fs')
  | done {bytes : List UInt8} {fs' : FileSystem} (hopen : fs.openable place = true)
      (hbytes : encodeUtf8 t = some bytes) (hleft : fs.leftover place t = none) (hwrote : Wrote place bytes fs fs') :
      TextWritten place t fs (.ok ⟨⟩ fs')

theorem writeText_cases (place : Place) (t : Text) (fs : FileSystem) : TextWritten place t fs (writeText place t fs) := by
  unfold writeText
  obtain ⟨hopen, exc, herror⟩ | ⟨hopen, hne, hok⟩ := openForWriting_cases place fs
  · rw [bind_error herror]
    exact .refused hopen
  · rw [bind_ok hok]
    cases hbytes : encodeUtf8 t with
    | none =>
      have hleft : fs.leftover place t = some [] := by simp only [leftover, hbytes]
      exact .failed hopen hleft ⟨fun p => node?_set fs hne _ p, rfl, rfl, rfl⟩
    | some bytes =>
      show TextWritten place t fs (writeBytes place bytes (fs.opened place))
      unfold writeBytes
      have hdevice : (fs.opened place).device place bytes = fs.device place bytes := rfl
      rw [hdevice]
      cases hfails : fs.device place bytes with
      | none =>
        have hleft : fs.leftover place t = none := by simp only [leftover, hbytes, hfails, Option.map_none]
        exact .done hopen hbytes hleft ⟨node?_opened_set fs hne bytes, rfl, rfl, rfl⟩
      | some failure =>
        have hleft : fs.leftover place t = some failure.2 := by
          simp only [leftover, hbytes, hfails, Option.map_some]
        exact .failed hopen hleft ⟨node?_opened_set fs hne failure.2, rfl, rfl, rfl⟩

theorem Wrote.acts {place : Place} {bytes : List UInt8} (h : Wrote place bytes fs fs') (hp : P (.write place)) :
    Acts P fs fs' :=
  .one hp h.calls fun p hne => (h.nodes p).trans (if_neg hne)

theorem writeText_acts {place : Place} (hp : P (.write place)) (t : Text) :
    Along (Acts P) (writeText place t) (fun _ => True) := by
  intro fs
  have hcases := writeText_cases place t fs
  generalize writeText place t fs = r at hcases
  cases hcases with
  | refused => exact .refl fs
  | failed _ _ hwrote => exact hwrote.acts hp
  | done _ _ _ hwrote => exact ⟨hwrote.acts hp, trivial⟩

theorem readBytes_eq {place : Place} {bytes : List UInt8} (h : fs.node? place = some (.file bytes))
    (hrefuses : fs.refuses (.read place) = none) :
    readBytes place fs = .ok bytes { fs with calls := fs.calls ++ [.read place] } := by
  unfold readBytes
  rw [get_bind, h]
  exact bind_ok (call_ok hrefuses) _

theorem readBytes_refused {place : Place} {bytes : List UInt8} {exc : Exc} (h : fs.node? place = some (.file bytes))
    (hrefuses : fs.refuses (.read place) = some exc) : readBytes place fs = .error exc fs := by
  unfold readBytes
  rw [get_bind, h]
  exact bind_error (call_error hrefuses) _

section Rules

variable {α β : Type} {Q : α → Prop} {Q' : β → Prop} {x : EStateM Exc FileSystem α}

theorem Acts.pure {a : α} (h : Q a) : Along (Acts P) (pure a : EStateM Exc FileSystem α) Q := Along.pure .refl h

theorem Acts.throw (exc : Exc) : Along (Acts P) (throw exc : EStateM Exc FileSystem α) Q := Along.throw .refl exc

theorem Acts.bind (h : Along (Acts P) x Q) {f : α → EStateM Exc FileSystem β}
    (hf : ∀ a, Q a → Along (Acts P) (f a) Q') : Along (Acts P) (x >>= f) Q' :=
  Along.bind (fun _ _ _ => .trans) h hf

end Rules

theorem readBytes_acts {place : Place} (hp : P (.read place)) : Along (Acts P) (readBytes place) (fun _ => True) := by
  unfold readBytes
  refine Acts.bind (Along.get .refl) fun fs _ => ?_
  split
  · exact Acts.throw _
  · exact Acts.throw _
  · exact Acts.bind (call_acts hp) fun _ _ => Acts.pure trivial

theorem readText_acts {place : Place} (hp : P (.read place)) : Along (Acts P) (readText place) (fun _ => True) := by
  unfold readText
  refine Acts.bind (readBytes_acts hp) fun bytes _ => ?_
  split
  · exact Acts.throw _
  · exact Acts.pure trivial

theorem readTextIgnoring_acts {place : Place} (hp : P (.read place)) :
    Along (Acts P) (readTextIgnoring place) (fun _ => True) :=
  Acts.bind (readBytes_acts hp) fun _ _ => Acts.pure trivial

theorem readNode_acts {place : Place} (hp : P (.read place)) : Along (Acts P) (readNode place) (fun _ => True) := by
  unfold readNode
  refine Acts.bind (Along.get .refl) fun fs _ => ?_
  split
  · exact Acts.throw _
  · exact Acts.bind (call_acts hp) fun _ _ => Acts.pure trivial

theorem remove_acts {place : Place} (hp : P (.remove place)) : Along (Acts P) (remove place) (fun _ => True) := by
  refine effect_acts hp (fun _ => rfl) fun fs p hne => ?_
  unfold node?
  rw [Dict.get?_erase, if_neg (show p ≠ place from hne)]

theorem iterdir_acts {place : Place} (hp : P (.list place)) : Along (Acts P) (iterdir place) (fun _ => True) :=
  Acts.bind (call_acts hp) fun _ _ => Acts.bind (Along.get .refl) fun _ _ => Acts.pure trivial

end Acts

end FileSystem

end Ochestrate
