import Mathlib.Data.List.Dedup
import Mathlib.Data.List.Infix
import Ochestrate.Framework.Disk

/-!
# Patterns of file names

A name pattern is a list of tokens: `*`, `?`, a class in brackets, or a
character. `Disk.glob` finds the entries of a directory that a relative path
pattern describes, component by component; a component without a wildcard is a
name, `**` is any chain of directories. `fnmatch_star_iff` and `glob_star` are
the rules for a pattern with a single `*`.
-/

namespace Ochestrate

inductive GlobToken
  | many
  | one
  | char (c : Char)
  | among (negated : Bool) (ranges : List (Char × Char))
  deriving DecidableEq

/-- The inside of a class: ranges `a-z` and characters. -/
def classRanges : List Char → List (Char × Char)
  | c :: '-' :: d :: cs => (c, d) :: classRanges cs
  | c :: cs => (c, c) :: classRanges cs
  | [] => []

/-- The class that starts after a `[`, with what follows it; a first `]` is a
member, and without a closing `]` there is no class. -/
def classToken (cs : List Char) : Option (GlobToken × List Char) :=
  let negated := cs.head? = some '!'
  let body := if negated then cs.tail else cs
  let first := body.take 1
  let members := first ++ body.tail.takeWhile (· ≠ ']')
  match body.tail.dropWhile (· ≠ ']') with
  | [] => none
  | _ :: rest => some (.among negated (classRanges members), rest)

/-- The tokens of a pattern, at most as many as the first argument. -/
def tokensFuel : Nat → List Char → List GlobToken
  | 0, _ => []
  | _ + 1, [] => []
  | fuel + 1, c :: cs =>
    if c = '*' then .many :: tokensFuel fuel cs
    else if c = '?' then .one :: tokensFuel fuel cs
    else if c = '[' then
      match classToken cs with
      | none => .char c :: tokensFuel fuel cs
      | some (token, rest) => token :: tokensFuel fuel rest
    else .char c :: tokensFuel fuel cs

def globTokens (pattern : String) : List GlobToken := tokensFuel pattern.toList.length pattern.toList

def GlobToken.accepts : GlobToken → Char → Bool
  | .many, _ => false
  | .one, _ => true
  | .char c, d => c = d
  | .among negated ranges, d => (ranges.any fun r => r.1 ≤ d && d ≤ r.2) != negated

/-- A name matches a list of tokens. -/
def globMatches : List GlobToken → List Char → Bool
  | [], name => name.isEmpty
  | .many :: tokens, name => name.tails.any fun rest => globMatches tokens rest
  | token :: tokens, c :: name => token.accepts c && globMatches tokens name
  | _ :: _, [] => false

def fnmatch (pattern name : String) : Bool := globMatches (globTokens pattern) name.toList

/-- A character that is not itself in a pattern. -/
def isWildcard (c : Char) : Bool := c = '*' || c = '?' || c = '['

namespace Disk

variable {α : Type}

/-- The ways down from a directory to itself and the directories below it. -/
def subdirectories (disk : Disk α) (place : Location) : List (List String) :=
  (disk.entries.keys.filter fun below => place.isPrefixOf below && disk.isDirectory below).map (·.drop place.length)

/-- The ways down from `place` that the components of a pattern describe;
`route` is the way so far. -/
def select (disk : Disk α) : List String → Location → List String → List (List String)
  | [], _, route => [route]
  | c :: cs, place, route =>
    if c = "**" then
      (disk.subdirectories place).flatMap fun names => disk.select cs (place ++ names) (route ++ names)
    else if c.toList.any isWildcard then
      ((disk.children place).filter (fnmatch c)).flatMap fun name =>
        if cs = [] || disk.isDirectory (place ++ [name]) then disk.select cs (place ++ [name]) (route ++ [name]) else []
    else if disk.isDirectory (descend place c) || (cs = [] && (disk.content? (descend place c)).isSome) then
      disk.select cs (descend place c) (route ++ [c])
    else []

/-- `dir.glob(pattern)`: the ways from `dir` to what it finds. -/
def glob (disk : Disk α) (dir : Location) (pattern : String) : Except Exc (List (List String)) :=
  if isAbsolute pattern then .error ⟨.other, "Non-relative patterns are unsupported"⟩
  else if (pathComponents pattern).any fun c => c ≠ "**" && decide (['*', '*'] <:+: c.toList) then
    .error ⟨.valueError, "Invalid pattern: '**' can only be an entire path component"⟩
  else .ok (disk.select (pathComponents pattern) dir []).dedup

end Disk

/-! ## Patterns with one star -/

/-- Characters that stand for themselves, none of them a separator. -/
def Literal (text : String) : Prop := ∀ c ∈ text.toList, isWildcard c = false ∧ c ≠ '/'

instance (text : String) : Decidable (Literal text) :=
  List.decidableBAll (fun c => isWildcard c = false ∧ c ≠ '/') text.toList

theorem tokensFuel_literal {cs : List Char} (h : ∀ c ∈ cs, isWildcard c = false) (fuel : Nat) (rest : List Char) :
    tokensFuel (cs.length + fuel) (cs ++ rest) = cs.map .char ++ tokensFuel fuel rest := by
  induction cs with
  | nil => simp
  | cons c cs ih =>
    have hc := h c (List.mem_cons_self ..)
    simp only [isWildcard, Bool.or_eq_false_iff, decide_eq_false_iff_not] at hc
    have hfuel : (c :: cs).length + fuel = (cs.length + fuel) + 1 := by simp; omega
    rw [hfuel, List.cons_append, tokensFuel, if_neg hc.1.1, if_neg hc.1.2, if_neg hc.2,
      ih fun d hd => h d (List.mem_cons_of_mem _ hd)]
    rfl

theorem globTokens_star {before after : String} (hbefore : Literal before) (hafter : Literal after) :
    globTokens (before ++ "*" ++ after) = before.toList.map .char ++ .many :: after.toList.map .char := by
  have htext : (before ++ "*" ++ after).toList = before.toList ++ ('*' :: after.toList) := by simp
  have hlength : (before ++ "*" ++ after).toList.length = before.toList.length + (after.toList.length + 1) := by
    rw [htext, List.length_append, List.length_cons]
  rw [globTokens, hlength, htext, tokensFuel_literal fun c hc => (hbefore c hc).1]
  have hrest := tokensFuel_literal (fun c hc => (hafter c hc).1) 0 []
  rw [List.append_nil, Nat.add_zero] at hrest
  rw [tokensFuel, if_pos rfl, hrest]
  simp [tokensFuel]

theorem globMatches_literal (cs : List Char) (tokens : List GlobToken) (name : List Char) :
    globMatches (cs.map .char ++ tokens) name = true ↔ ∃ rest, name = cs ++ rest ∧ globMatches tokens rest = true := by
  induction cs generalizing name with
  | nil => simp
  | cons c cs ih =>
    cases name with
    | nil => simp [globMatches]
    | cons d name =>
      simp only [List.map_cons, List.cons_append, globMatches, GlobToken.accepts, Bool.and_eq_true, decide_eq_true_eq,
        ih, List.cons.injEq]
      constructor
      · rintro ⟨rfl, rest, rfl, h⟩
        exact ⟨rest, ⟨rfl, rfl⟩, h⟩
      · rintro ⟨rest, ⟨rfl, rfl⟩, h⟩
        exact ⟨rfl, rest, rfl, h⟩

/-- A name matches if it starts and ends as the pattern does, without an
overlap. -/
theorem fnmatch_star_iff {before after : String} (hbefore : Literal before) (hafter : Literal after) (name : String) :
    fnmatch (before ++ "*" ++ after) name = true ↔
      ∃ middle, name.toList = before.toList ++ (middle ++ after.toList) := by
  have hafter' : ∀ rest, globMatches (after.toList.map .char) rest = true ↔ rest = after.toList := by
    intro rest
    have h := globMatches_literal after.toList [] rest
    rw [List.append_nil] at h
    rw [h]
    simp [globMatches]
  rw [fnmatch, globTokens_star hbefore hafter, globMatches_literal]
  simp only [globMatches, List.any_eq_true, List.mem_tails, hafter']
  constructor
  · rintro ⟨rest, hname, suffix, ⟨middle, rfl⟩, rfl⟩
    exact ⟨middle, hname⟩
  · rintro ⟨middle, hname⟩
    exact ⟨_, hname, _, ⟨middle, rfl⟩, rfl⟩

section Star

variable {before after : String}

theorem toList_star (before after : String) :
    (before ++ "*" ++ after).toList = before.toList ++ '*' :: after.toList := by
  simp

theorem Literal.count_star {text : String} (h : Literal text) : text.toList.count '*' = 0 := by
  rw [List.count_eq_zero]
  intro hmem
  have hstar : isWildcard '*' = false := (h '*' hmem).1
  cases hstar

theorem count_star (hbefore : Literal before) (hafter : Literal after) :
    (before ++ "*" ++ after).toList.count '*' = 1 := by
  rw [toList_star, List.count_append, List.count_cons_self, hbefore.count_star, hafter.count_star]

/-- A pattern with one star is a single name. -/
theorem plainName_star (hbefore : Literal before) (hafter : Literal after) : PlainName (before ++ "*" ++ after) := by
  have hcount := count_star hbefore hafter
  refine ⟨?_, ?_, ?_, ?_⟩
  · rw [toList_star, List.mem_append, List.mem_cons]
    rintro (hmem | hmem | hmem)
    · exact (hbefore '/' hmem).2 rfl
    · exact absurd hmem (by decide)
    · exact (hafter '/' hmem).2 rfl
  all_goals
    intro htext
    rw [htext] at hcount
    exact absurd hcount (by decide)

end Star

namespace Disk

variable {α : Type} (disk : Disk α)

theorem nodup_children (dir : Location) : (disk.children dir).Nodup := by
  refine disk.entries.nodup.filterMap fun place place' name hname hname' => ?_
  simp only [Option.mem_def, Option.ite_none_right_eq_some] at hname hname'
  obtain ⟨hdir, hlast⟩ := hname
  obtain ⟨hdir', hlast'⟩ := hname'
  rw [← List.dropLast_append_getLast? name hlast, ← List.dropLast_append_getLast? name hlast', hdir, hdir']

/-- A pattern with one star finds the entries of the directory whose names match. -/
theorem glob_star {before after : String} (hbefore : Literal before) (hafter : Literal after) (dir : Location) :
    disk.glob dir (before ++ "*" ++ after) =
      .ok (((disk.children dir).filter (fnmatch (before ++ "*" ++ after))).map ([·])) := by
  have hplain := plainName_star hbefore hafter
  have hcount := count_star hbefore hafter
  have habs : isAbsolute (before ++ "*" ++ after) = false := by
    rw [isAbsolute, decide_eq_false_iff_not]
    exact fun hhead => hplain.separator (List.mem_of_head? hhead)
  have hdouble : ¬ ['*', '*'] <:+: (before ++ "*" ++ after).toList := by
    intro hinfix
    have hle := hinfix.sublist.count_le '*'
    rw [hcount] at hle
    exact absurd hle (by decide)
  have hne : before ++ "*" ++ after ≠ "**" := by
    intro htext
    rw [htext] at hcount
    exact absurd hcount (by decide)
  have hwild : (before ++ "*" ++ after).toList.any isWildcard = true := by
    rw [List.any_eq_true]
    exact ⟨'*', by rw [toList_star]; simp, by decide⟩
  have hselect : disk.select [before ++ "*" ++ after] dir [] =
      ((disk.children dir).filter (fnmatch (before ++ "*" ++ after))).map ([·]) := by
    rw [select, if_neg hne, if_pos hwild, ← List.flatMap_pure_eq_map]
    rfl
  have hnodup : (((disk.children dir).filter (fnmatch (before ++ "*" ++ after))).map ([·])).Nodup :=
    ((disk.nodup_children dir).filter _).map fun name name' h => List.head_eq_of_cons_eq h
  have hvalid : ([before ++ "*" ++ after].any fun c => c ≠ "**" && decide (['*', '*'] <:+: c.toList)) = false := by
    rw [List.any_cons, List.any_nil, decide_eq_false hdouble, Bool.and_false, Bool.or_false]
  unfold glob
  rw [habs, hplain.pathComponents, hvalid, hselect, hnodup.dedup]
  rfl

end Disk

end Ochestrate
