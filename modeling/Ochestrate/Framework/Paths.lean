import Mathlib.Data.List.Basic

/-!
# Paths

A path text is split at its separators; joined to a base it is the list of
components that a walk from the root follows, with `..` for a step up.
`normalise` is where the walk ends. `reduce` brings the components to a number
of steps up and the names that follow: `inside_normalise_iff` says by these two
when a joined path ends inside its base.
-/

namespace Ochestrate

/-- A place in a tree of directories: the names on the way from its root. -/
abbrev Location := List String

/-- The components of a path text, without empty ones and `.`. -/
def pathComponents (text : String) : List String :=
  ((text.toList.splitOn '/').map String.ofList).filter fun c => c ≠ "" && c ≠ "."

def isAbsolute (text : String) : Bool := text.toList.head? = some '/'

/-- `base / text`: an absolute text replaces the base. -/
def joinPath (base : Location) (text : String) : List String :=
  if isAbsolute text then pathComponents text else base ++ pathComponents text

/-- One component further; there is nothing above the root. -/
def descend (place : Location) (name : String) : Location :=
  if name = ".." then place.dropLast else place ++ [name]

def normalise (path : List String) : Location := path.foldl descend []

/-- Some steps up, then down along names. -/
structure Reduced where
  up : Nat
  names : List String
  deriving DecidableEq, Repr

/-- The same route with one more component. -/
def Reduced.descend (r : Reduced) (name : String) : Reduced :=
  if name = ".." then
    if r.names = [] then { r with up := r.up + 1 } else { r with names := r.names.dropLast }
  else { r with names := r.names ++ [name] }

def reduce (path : List String) : Reduced := path.foldl Reduced.descend ⟨0, []⟩

/-- Where the route leads from a place. -/
def Reduced.apply (r : Reduced) (place : Location) : Location := place.take (place.length - r.up) ++ r.names

/-- A place below `dir`, in it or in one of its subdirectories. -/
def Inside (dir place : Location) : Prop := ∃ rest, rest ≠ [] ∧ place = dir ++ rest

instance (dir place : Location) : Decidable (Inside dir place) :=
  decidable_of_iff (dir <+: place ∧ place ≠ dir) <| by
    constructor
    · rintro ⟨⟨rest, rfl⟩, hne⟩
      exact ⟨rest, fun hrest => hne (by rw [hrest, List.append_nil]), rfl⟩
    · rintro ⟨rest, hne, rfl⟩
      exact ⟨List.prefix_append dir rest, by simpa using hne⟩

/-- The text goes up `reduce.up` directories from `dir` and comes back down
through the same ones; one that starts at the root comes down through all. -/
def Stays (dir : Location) (text : String) : Prop :=
  let r := reduce (pathComponents text)
  if isAbsolute text then Inside dir r.names else Inside (dir.drop (dir.length - r.up)) r.names

instance (dir : Location) (text : String) : Decidable (Stays dir text) := by
  unfold Stays
  infer_instance

/-! ## Reduced routes -/

theorem descend_apply (r : Reduced) (place : Location) (name : String) :
    descend (r.apply place) name = (r.descend name).apply place := by
  unfold descend Reduced.descend
  split
  · split
    · next hnames =>
      simp only [Reduced.apply, hnames, List.append_nil, List.dropLast_eq_take, List.take_take, List.length_take]
      congr 1
      omega
    · next hnames => exact List.dropLast_append_of_ne_nil hnames
  · exact List.append_assoc ..

theorem foldl_descend_apply (path : List String) (r : Reduced) (place : Location) :
    path.foldl descend (r.apply place) = (path.foldl Reduced.descend r).apply place := by
  induction path generalizing r with
  | nil => rfl
  | cons name path ih => rw [List.foldl_cons, descend_apply, ih, List.foldl_cons]

/-- A walk from a place ends where its reduced route leads. -/
theorem foldl_descend (path : List String) (place : Location) :
    path.foldl descend place = (reduce path).apply place := by
  have hplace : place = (⟨0, []⟩ : Reduced).apply place := by simp [Reduced.apply]
  conv_lhs => rw [hplace]
  exact foldl_descend_apply path ⟨0, []⟩ place

theorem inside_append_iff (base dir place : Location) : Inside (base ++ dir) (base ++ place) ↔ Inside dir place := by
  simp only [Inside, List.append_assoc, List.append_cancel_left_eq]

/-- A route ends inside the place it starts from exactly if it comes back
through the directories it left. -/
theorem inside_apply_iff (r : Reduced) (dir : Location) :
    Inside dir (r.apply dir) ↔ Inside (dir.drop (dir.length - r.up)) r.names := by
  conv_lhs =>
    lhs
    rw [← List.take_append_drop (dir.length - r.up) dir]
  exact inside_append_iff ..

theorem normalise_of_names {path : List String} (h : ".." ∉ path) : normalise path = path := by
  have hfold : ∀ place : Location, path.foldl descend place = place ++ path := by
    induction path with
    | nil => exact fun place => (List.append_nil place).symm
    | cons name path ih =>
      intro place
      rw [List.mem_cons, not_or] at h
      rw [List.foldl_cons, ih h.2, descend, if_neg (Ne.symm h.1), List.append_assoc]
      rfl
  exact hfold []

/-- Where a joined path ends is inside its base exactly if the text stays
there. -/
theorem inside_normalise_iff {dir : Location} (hdir : ".." ∉ dir) (text : String) :
    Inside dir (normalise (joinPath dir text)) ↔ Stays dir text := by
  unfold joinPath Stays
  split
  · rw [normalise, foldl_descend]
    simp [Reduced.apply]
  · rw [normalise, List.foldl_append, ← normalise, normalise_of_names hdir, foldl_descend]
    exact inside_apply_iff ..

/-! ## Plain names -/

/-- A text that is a single name. -/
structure PlainName (text : String) : Prop where
  separator : '/' ∉ text.toList
  ne_empty : text ≠ ""
  ne_here : text ≠ "."
  ne_up : text ≠ ".."

theorem PlainName.pathComponents {text : String} (h : PlainName text) : pathComponents text = [text] := by
  have hsplit : text.toList.splitOn '/' = [text.toList] := by
    refine List.splitOnP_eq_singleton fun c hc => ?_
    rw [beq_eq_false_iff_ne]
    rintro rfl
    exact h.separator hc
  simp [Ochestrate.pathComponents, hsplit, h.ne_empty, h.ne_here]

theorem PlainName.joinPath {text : String} (h : PlainName text) (dir : Location) :
    joinPath dir text = dir ++ [text] := by
  have habs : isAbsolute text = false := by
    rw [isAbsolute, decide_eq_false_iff_not]
    intro hhead
    exact h.separator (List.mem_of_head? hhead)
  simp only [Ochestrate.joinPath, habs, Bool.false_eq_true, ↓reduceIte, h.pathComponents]

theorem PlainName.stays {text : String} (h : PlainName text) {dir : Location} (hdir : ".." ∉ dir) :
    Stays dir text := by
  rw [← inside_normalise_iff hdir, h.joinPath, normalise_of_names]
  · exact ⟨[text], by simp, rfl⟩
  · simpa [hdir] using Ne.symm h.ne_up

end Ochestrate
