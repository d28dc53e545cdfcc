import Ochestrate.Tools.FileTool

/-!
# What a write leaves and what a read gives back

A write of a `.json`, `.txt` or `.csv` file makes the directories that are
missing, opens the file and then writes the text, and a write with another
extension makes the directories and raises (`writeFile_cases`).
`write_atomic_iff` says when a write that raises has changed nothing;
`round_trip_iff` when a read gives back what a write was given.
-/

namespace Ochestrate

namespace FileTool

open FileSystem

variable {κ : Type} (tool : FileTool κ)

/-- The extensions of text files. -/
def textSuffixes : List Text := [Text.of ".json", Text.of ".txt", Text.of ".csv"]

/-- The file system with the directories above the target. -/
def madeAbove (fs : FileSystem) (target : Place) : FileSystem := (fs.missing target.dropLast.inits).foldl made fs

/-- The text of a write that gets as far as to open its file. -/
def openedFor (fs : FileSystem) (target : Place) (content : Value κ) : Option Text :=
  if (∀ dir ∈ target.dropLast.inits, fs.obstructed dir = false) ∧ fs.isDirectory target = false ∧
      fs.refuses (.write target) = none ∧ textSuffixes.contains (tool.suffixOf target) then
    (tool.textFor (tool.suffixOf target) content).toOption
  else none

/-- How a write goes: it raises and has only made directories, it raises with
the file open, or it returns. -/
inductive FileWritten (fs : FileSystem) (target : Place) (content : Value κ) :
    EStateM.Result Exc FileSystem (Values κ) → Prop
  | unopened {exc : Exc} (htext : tool.openedFor fs target content = none) :
      FileWritten fs target content (.error exc (madeAbove fs target))
  | failed {exc : Exc} {t : Text} {left : List UInt8} {fs' : FileSystem}
      (htext : tool.openedFor fs target content = some t) (hleft : fs.leftover target t = some left)
      (hwrote : Wrote target left (madeAbove fs target) fs') : FileWritten fs target content (.error exc fs')
  | done {output : Values κ} {t : Text} {bytes : List UInt8} {fs' : FileSystem}
      (htext : tool.openedFor fs target content = some t) (hleft : fs.leftover target t = none)
      (hbytes : encodeUtf8 t = some bytes) (hwrote : Wrote target bytes (madeAbove fs target) fs') :
      FileWritten fs target content (.ok output fs')

variable {fs : FileSystem} {target : Place}

theorem target_notMem_missing (fs : FileSystem) (target : Place) : target ∉ fs.missing target.dropLast.inits := by
  intro hmem
  have hprefix := (List.mem_inits _ _).1 (node?_of_mem_missing hmem).1
  have hlength := hprefix.length_le
  rw [List.length_dropLast] at hlength
  have hnil : target = [] := List.eq_nil_of_length_eq_zero (by omega)
  subst hnil
  exact root_notMem_missing _ _ hmem

/-- Below directories that are there the file can be opened exactly as before. -/
theorem openable_madeAbove (hclear : ∀ dir ∈ target.dropLast.inits, fs.obstructed dir = false) :
    (madeAbove fs target).openable target = (!fs.isDirectory target && (fs.refuses (.write target)).isNone) := by
  have hparent : (madeAbove fs target).isDirectory target.dropLast = true := isDirectory_madeAll hclear
  have htarget : (madeAbove fs target).isDirectory target = fs.isDirectory target := by
    unfold isDirectory madeAbove
    rw [node?_madeAll, if_neg (target_notMem_missing fs target)]
  have hrefuses : (madeAbove fs target).refuses = fs.refuses := (foldl_made _ fs).2.1
  rw [openable, hparent, htarget, hrefuses, Bool.true_and]

theorem leftover_madeAbove (t : Text) : (madeAbove fs target).leftover target t = fs.leftover target t := by
  have hdevice : (madeAbove fs target).device = fs.device := (foldl_made _ fs).2.2
  unfold leftover
  rw [hdevice]

/-- The text is written once the directories are there. -/
theorem writes_text {content : Value κ} (hclear : ∀ dir ∈ target.dropLast.inits, fs.obstructed dir = false)
    (hsuffix : tool.suffixOf target ∈ textSuffixes) (output : Values κ) :
    FileWritten tool fs target content ((do
      writeText target (← MonadExcept.ofExcept (tool.textFor (tool.suffixOf target) content))
      return output) (madeAbove fs target)) := by
  cases htext : tool.textFor (tool.suffixOf target) content with
  | error exc =>
    refine .unopened ?_
    unfold openedFor
    rw [htext]
    exact ite_self none
  | ok t =>
    show FileWritten tool fs target content ((do
      writeText target t
      return output) (madeAbove fs target))
    have hopened : (madeAbove fs target).openable target = true → tool.openedFor fs target content = some t := by
      intro hopen
      rw [openable_madeAbove hclear, Bool.and_eq_true, Bool.not_eq_true', Option.isNone_iff_eq_none] at hopen
      rw [openedFor, if_pos ⟨hclear, hopen.1, hopen.2, List.contains_iff_mem.2 hsuffix⟩, htext]
      rfl
    have hcases := writeText_cases target t (madeAbove fs target)
    generalize hwrite : writeText target t (madeAbove fs target) = r at hcases
    cases hcases with
    | refused hopen =>
      rw [bind_error hwrite]
      refine .unopened ?_
      rw [openable_madeAbove hclear] at hopen
      rw [openedFor, if_neg]
      rintro ⟨-, hdirectory, hrefuses, -⟩
      rw [hdirectory, hrefuses] at hopen
      cases hopen
    | failed hopen hleft hwrote =>
      rw [bind_error hwrite]
      rw [leftover_madeAbove] at hleft
      exact .failed (hopened hopen) hleft hwrote
    | done hopen hbytes hleft hwrote =>
      rw [bind_ok hwrite]
      rw [leftover_madeAbove] at hleft
      exact .done (hopened hopen) hleft hbytes hwrote

theorem writeFile_cases (content : Value κ) (fs : FileSystem)
    (hsuffix : tool.suffixOf target ∉ [Text.of ".docx", Text.of ".xlsx", Text.of ".xls"]) :
    FileWritten tool fs target content (tool.writeFile target content fs) := by
  obtain ⟨hfinal, hreturned⟩ := makeDirs_spec target.dropLast fs
  unfold writeFile
  cases hmake : makeDirs target.dropLast fs with
  | error exc fs₁ =>
    rw [hmake] at hfinal hreturned
    have hfs : fs₁ = madeAbove fs target := hfinal
    rw [bind_error hmake, hfs]
    refine .unopened ?_
    rw [openedFor, if_neg]
    rintro ⟨hclear, -⟩
    exact absurd (hreturned.2 hclear) (by simp)
  | ok u fs₁ =>
    rw [hmake] at hfinal hreturned
    have hfs : fs₁ = madeAbove fs target := hfinal
    have hclear := hreturned.1 rfl
    rw [bind_ok hmake, hfs]
    have hunopened : tool.suffixOf target ∉ textSuffixes → ∀ exc, FileWritten tool fs target content
        (.error exc (madeAbove fs target)) := by
      intro htext exc
      refine .unopened ?_
      rw [openedFor, if_neg]
      rintro ⟨-, -, -, h⟩
      exact htext (List.contains_iff_mem.1 h)
    by_cases hjson : tool.suffixOf target = Text.of ".json"
    · rw [if_pos hjson]
      exact tool.writes_text hclear (by rw [hjson]; decide) _
    rw [if_neg hjson]
    by_cases hplain : tool.suffixOf target ∈ [Text.of ".txt", Text.of ".csv"]
    · rw [if_pos hplain]
      exact tool.writes_text hclear (List.mem_cons_of_mem _ hplain) _
    have htext : tool.suffixOf target ∉ textSuffixes := fun hmem => (List.mem_cons.1 hmem).elim hjson hplain
    have hdocx : tool.suffixOf target ≠ Text.of ".docx" := fun heq => hsuffix (by rw [heq]; decide)
    have hexcel : tool.suffixOf target ∉ [Text.of ".xlsx", Text.of ".xls"] :=
      fun hmem => hsuffix (List.mem_cons_of_mem _ hmem)
    rw [if_neg hplain, if_neg hdocx]
    by_cases hdoc : tool.suffixOf target = Text.of ".doc"
    · rw [if_pos hdoc]
      exact hunopened htext _
    rw [if_neg hdoc, if_neg hexcel]
    by_cases hpdf : tool.suffixOf target = Text.of ".pdf"
    · rw [if_pos hpdf]
      exact hunopened htext _
    · rw [if_neg hpdf]
      exact hunopened htext _

/-! ## Writes that raise -/

/-- The write completes, or it raises and there was nothing to change: no
directory to make, and in the file that is opened just the bytes that are left. -/
def Atomic (fs : FileSystem) (target : Place) (content : Value κ) : Prop :=
  match tool.openedFor fs target content with
  | none => fs.missing target.dropLast.inits = []
  | some t =>
    match fs.leftover target t with
    | none => True
    | some left => fs.missing target.dropLast.inits = [] ∧ fs.node? target = some (.file left)

/-- A write that has opened its file changes nothing exactly if the file held
the bytes that it holds now and no directory was made. -/
theorem wrote_unchanged_iff {left : List UInt8} {fs' : FileSystem} (h : Wrote target left (madeAbove fs target) fs') :
    (∀ place, fs'.node? place = fs.node? place) ↔
      fs.missing target.dropLast.inits = [] ∧ fs.node? target = some (.file left) := by
  constructor
  · intro hsame
    have htarget := hsame target
    rw [h.nodes, if_pos rfl] at htarget
    refine ⟨List.eq_nil_iff_forall_not_mem.2 fun p hp => ?_, htarget.symm⟩
    have hne : p ≠ target := fun heq => target_notMem_missing fs target (heq ▸ hp)
    have hnode := hsame p
    rw [h.nodes, if_neg hne, madeAbove, node?_madeAll, if_pos hp, (node?_of_mem_missing hp).2] at hnode
    cases hnode
  · rintro ⟨hmissing, htarget⟩ place
    rw [h.nodes, madeAbove, hmissing]
    split
    · next heq => rw [heq, htarget]
    · rfl

/-- For every dictionary of parameters that asks for a write to a file that is
neither a Word document nor a sheet: a run that raises leaves all directories
and files as they were exactly if it refuses the path or the write is atomic. -/
theorem write_atomic_iff (params : Values κ) (fs : FileSystem) (hwrite : tool.operationOf params = Text.of "write")
    (hsuffix : tool.suffixOf (tool.target (tool.pathValue params)) ∉
      [Text.of ".docx", Text.of ".xlsx", Text.of ".xls"]) :
    (∀ exc fs', tool.run params fs = .error exc fs' → ∀ place, fs'.node? place = fs.node? place) ↔
      tool.pathValue params = [] ∨ Place.encodable (tool.pathValue params) = false ∨
        tool.security.isPathAllowed (tool.target (tool.pathValue params)) = false ∨
        tool.Atomic fs (tool.target (tool.pathValue params)) (get params "content") := by
  by_cases hrefused : tool.pathValue params = [] ∨ Place.encodable (tool.pathValue params) = false ∨
      tool.security.isPathAllowed (tool.target (tool.pathValue params)) = false
  · obtain ⟨exc, herror⟩ := tool.run_refused fs hrefused
    refine ⟨fun _ => ?_, fun _ exc' fs' hrun place => ?_⟩
    · obtain h | h | h := hrefused
      · exact .inl h
      · exact .inr (.inl h)
      · exact .inr (.inr (.inl h))
    · rw [herror] at hrun
      cases hrun
      rfl
  · obtain ⟨hpath, hor⟩ := not_or.1 hrefused
    obtain ⟨hencodable, hallowed⟩ := not_or.1 hor
    rw [Bool.not_eq_false] at hencodable hallowed
    have hrun : tool.run params = tool.writeFile (tool.target (tool.pathValue params)) (get params "content") := by
      rw [tool.run_allowed hpath hencodable hallowed, hwrite]
      rfl
    rw [hrun]
    simp only [hpath, hencodable, hallowed, Bool.true_eq_false, false_or]
    have hcases := tool.writeFile_cases (get params "content") fs hsuffix
    unfold Atomic
    generalize tool.writeFile (tool.target (tool.pathValue params)) (get params "content") fs = r at hcases
    cases hcases with
    | unopened htext =>
      rw [htext]
      refine Iff.trans ?_ (madeAll_eq_iff _ fs)
      exact ⟨fun h => h _ _ rfl, fun h _ _ heq => (EStateM.Result.error.inj heq).2 ▸ h⟩
    | failed htext hleft hwrote =>
      rw [htext]
      dsimp only
      rw [hleft]
      refine Iff.trans ?_ (wrote_unchanged_iff hwrote)
      exact ⟨fun h => h _ _ rfl, fun h _ _ heq => (EStateM.Result.error.inj heq).2 ▸ h⟩
    | done htext hleft =>
      rw [htext]
      dsimp only
      rw [hleft]
      exact ⟨fun _ => trivial, fun _ _ _ heq => nomatch heq⟩

theorem notes_write_atomic :
    let tool := dataTool plainLibraries
    let params := fileParams "write" "data/notes.txt" (.str (Text.of "hello"))
    let fs := dataFiles [("notes.txt", [104, 105])]
    (∀ exc fs', tool.run params fs = .error exc fs' → ∀ place, fs'.node? place = fs.node? place) ↔
      tool.pathValue params = [] ∨ Place.encodable (tool.pathValue params) = false ∨
        tool.security.isPathAllowed (tool.target (tool.pathValue params)) = false ∨
        tool.Atomic fs (tool.target (tool.pathValue params)) (get params "content") :=
  (dataTool plainLibraries).write_atomic_iff (fileParams "write" "data/notes.txt" (.str (Text.of "hello")))
    (dataFiles [("notes.txt", [104, 105])]) (by decide) (by decide)

/-- A text that cannot be encoded empties the file that it was to replace, and a
refused extension leaves a new directory. -/
theorem failed_writes_change :
    let tool := dataTool plainLibraries
    let notes := [Text.of "srv", Text.of "ws", Text.of "data", Text.of "notes.txt"]
    let new := [Text.of "srv", Text.of "ws", Text.of "data", Text.of "new"]
    let fs := dataFiles [("notes.txt", [104, 105])]
    let r := tool.run (fileParams "write" "data/notes.txt" (.str [.surrogate 0])) fs
    let r' := tool.run (fileParams "write" "data/new/old.doc" (.str (Text.of "hello"))) fs
    returned r = false ∧ fs.node? notes = some (.file [104, 105]) ∧ (finalState r).node? notes = some (.file []) ∧
      returned r' = false ∧ fs.node? new = none ∧ (finalState r').node? new = some .directory := by
  decide +kernel

/-! ## Round trips -/

theorem result_get? (operation : String) (target : Place) (resourceType : Value κ) (name : String) (value : Value κ) :
    (result operation target [("resource_type", resourceType), (name, value)]).get? (Text.of name) = some value := by
  unfold result
  simp only [Dict.update, List.map_cons, List.map_nil, List.foldl_cons, List.foldl_nil]
  rw [Dict.get?_set_self]

/-- The read of a path returns a value under a name. -/
def Returns (params : Values κ) (fs : FileSystem) (name : String) (value : Value κ) : Prop :=
  ∃ output fs', tool.run params fs = .ok output fs' ∧ output.get? (Text.of name) = some value

/-- A run that returns was let through. -/
theorem allowed_of_run {params : Values κ} {output : Values κ} {fs' : FileSystem}
    (h : tool.run params fs = .ok output fs') : tool.pathValue params ≠ [] ∧
      Place.encodable (tool.pathValue params) = true ∧
      tool.security.isPathAllowed (tool.target (tool.pathValue params)) = true := by
  by_cases hrefused : tool.pathValue params = [] ∨ Place.encodable (tool.pathValue params) = false ∨
      tool.security.isPathAllowed (tool.target (tool.pathValue params)) = false
  · obtain ⟨exc, herror⟩ := tool.run_refused fs hrefused
    rw [herror] at h
    cases h
  · simpa using hrefused

section Read

variable {bytes : List UInt8} {exc : Exc}

/-- The bytes of a file that is not too large. -/
theorem guardFileSize_ok (h : fs.node? target = some (.file bytes))
    (hsize : (bytes.length : Int) ≤ tool.security.maxFileSizeMb * 1024 * 1024) :
    tool.guardFileSize target fs = .ok ⟨⟩ fs := by
  unfold guardFileSize
  rw [get_bind, h]
  have hlimit : ¬ tool.security.maxFileSizeMb * 1024 * 1024 < (fs.sizeOf target (.file bytes) : Int) :=
    Int.not_lt.2 hsize
  simp only [hlimit, ↓reduceIte]
  rfl

/-- A read that the system refuses raises. -/
theorem readFile_refused (h : fs.node? target = some (.file bytes))
    (hsize : (bytes.length : Int) ≤ tool.security.maxFileSizeMb * 1024 * 1024)
    (hsuffix : tool.suffixOf target ∈ textSuffixes) (hrefuses : fs.refuses (.read target) = some exc) :
    tool.readFile target fs = .error exc fs := by
  unfold readFile
  rw [bind_ok (tool.guardFileSize_ok h hsize)]
  by_cases hjson : tool.suffixOf target = Text.of ".json"
  · have hread : readText target fs = .error exc fs := bind_error (readBytes_refused h hrefuses) _
    rw [if_pos hjson, bind_error hread]
  · have hplain := (List.mem_cons.1 hsuffix).resolve_left hjson
    have hread : readTextIgnoring target fs = .error exc fs := bind_error (readBytes_refused h hrefuses) _
    rw [if_neg hjson, if_pos hplain, bind_error hread]

/-- A read of a JSON file returns what its text means. -/
theorem readFile_json {t : Text} {data : Value κ} (h : fs.node? target = some (.file bytes))
    (hsize : (bytes.length : Int) ≤ tool.security.maxFileSizeMb * 1024 * 1024)
    (hsuffix : tool.suffixOf target = Text.of ".json") (hrefuses : fs.refuses (.read target) = none)
    (hbytes : decodeUtf8 bytes = some t) (hloads : tool.libraries.loads (translateNewlines t) = .ok data) :
    ∃ fs', tool.readFile target fs =
      .ok (result "read" target [("resource_type", .str (Text.of "json")), ("data", data)]) fs' := by
  unfold readFile
  have hread : readText target fs = .ok (translateNewlines t) { fs with calls := fs.calls ++ [.read target] } := by
    unfold readText
    rw [bind_ok (readBytes_eq h hrefuses), hbytes]
    rfl
  rw [bind_ok (tool.guardFileSize_ok h hsize), if_pos hsuffix, bind_ok hread, hloads]
  exact ⟨_, rfl⟩

/-- A read of a text file returns its text with the ends of lines translated. -/
theorem readFile_plain (h : fs.node? target = some (.file bytes))
    (hsize : (bytes.length : Int) ≤ tool.security.maxFileSizeMb * 1024 * 1024)
    (hsuffix : tool.suffixOf target ∈ [Text.of ".txt", Text.of ".csv"]) (hrefuses : fs.refuses (.read target) = none) :
    ∃ fs', tool.readFile target fs = .ok (result "read" target
      [("resource_type", .str (resourceType (tool.suffixOf target))),
        ("text", .str (translateNewlines (decodeIgnoring bytes)))]) fs' := by
  have hjson : tool.suffixOf target ≠ Text.of ".json" := by
    intro heq
    rw [heq] at hsuffix
    exact absurd hsuffix (by decide)
  unfold readFile
  have hread : readTextIgnoring target fs =
      .ok (translateNewlines (decodeIgnoring bytes)) { fs with calls := fs.calls ++ [.read target] } := by
    unfold readTextIgnoring
    rw [bind_ok (readBytes_eq h hrefuses)]
    rfl
  rw [bind_ok (tool.guardFileSize_ok h hsize), if_neg hjson, if_pos hsuffix, bind_ok hread]
  exact ⟨_, rfl⟩

end Read

/-- A write that returns leaves the bytes of its text in the file. -/
theorem holds_of_run {params : Values κ} {output : Values κ} {fs' : FileSystem}
    (hwrite : tool.operationOf params = Text.of "write")
    (hsuffix : tool.suffixOf (tool.target (tool.pathValue params)) ∈ textSuffixes)
    (h : tool.run params fs = .ok output fs') : ∃ t bytes,
      tool.textFor (tool.suffixOf (tool.target (tool.pathValue params))) (get params "content") = .ok t ∧
      encodeUtf8 t = some bytes ∧ fs'.node? (tool.target (tool.pathValue params)) = some (.file bytes) ∧
      fs'.refuses = fs.refuses := by
  obtain ⟨hpath, hencodable, hallowed⟩ := tool.allowed_of_run h
  have hrun : tool.run params = tool.writeFile (tool.target (tool.pathValue params)) (get params "content") := by
    rw [tool.run_allowed hpath hencodable hallowed, hwrite]
    rfl
  have hother : ∀ suffix ∈ textSuffixes, suffix ∉ [Text.of ".docx", Text.of ".xlsx", Text.of ".xls"] := by decide
  have hcases := tool.writeFile_cases (get params "content") fs (hother _ hsuffix)
  rw [← hrun, h] at hcases
  cases hcases with
  | @done _ t bytes _ htext hleft hbytes hwrote =>
    refine ⟨t, bytes, ?_, hbytes, ?_, ?_⟩
    · unfold openedFor at htext
      split at htext
      · cases htextFor : tool.textFor (tool.suffixOf (tool.target (tool.pathValue params))) (get params "content") with
        | ok t' =>
          rw [htextFor] at htext
          exact congrArg Except.ok (Option.some.inj htext)
        | error exc => rw [htextFor] at htext; cases htext
      · cases htext
    · rw [hwrote.nodes, if_pos rfl]
    · rw [hwrote.refuses]
      exact (foldl_made _ fs).2.1

/-- A write that returns, of any content within the size limit, and a read of
the same path. A JSON value comes back from a `.json` file if the system allows
the read and `json.loads` undoes `json.dumps`; a text comes back from a `.txt` or
`.csv` file exactly if the system allows the read and it has no carriage
return. -/
theorem round_trip_iff {params params' : Values κ} {output : Values κ} {fs' : FileSystem}
    (hwrite : tool.operationOf params = Text.of "write") (hread : tool.operationOf params' = Text.of "read")
    (hpath : tool.pathValue params' = tool.pathValue params)
    (hsuffix : tool.suffixOf (tool.target (tool.pathValue params)) ∈ textSuffixes)
    (hrun : tool.run params fs = .ok output fs')
    (hsize : ∀ t bytes, tool.textFor (tool.suffixOf (tool.target (tool.pathValue params))) (get params "content") = .ok t →
      encodeUtf8 t = some bytes → (bytes.length : Int) ≤ tool.security.maxFileSizeMb * 1024 * 1024) :
    (tool.suffixOf (tool.target (tool.pathValue params)) = Text.of ".json" →
      (get params "content").isJson = true →
      (∀ t, (get params "content").dumps tool.libraries.toJsonWriter (some 2) = .ok t →
        tool.libraries.loads t = .ok (get params "content")) →
      (tool.Returns params' fs' "data" (get params "content") ↔
        fs.refuses (.read (tool.target (tool.pathValue params))) = none)) ∧
    (tool.suffixOf (tool.target (tool.pathValue params)) ≠ Text.of ".json" →
      ∀ t, get params "content" = .str t →
        (tool.Returns params' fs' "text" (.str t) ↔
          fs.refuses (.read (tool.target (tool.pathValue params))) = none ∧ carriageReturn ∉ t)) := by
  obtain ⟨t, bytes, htext, hbytes, hnode, hrefuses⟩ := tool.holds_of_run hwrite hsuffix hrun
  obtain ⟨hne, hencodable, hallowed⟩ := tool.allowed_of_run hrun
  replace hsize := hsize t bytes htext hbytes
  have hrun' : tool.run params' = tool.readFile (tool.target (tool.pathValue params)) := by
    rw [tool.run_allowed (hpath ▸ hne) (hpath ▸ hencodable) (by rw [hpath]; exact hallowed), hread, hpath]
    rfl
  generalize tool.target (tool.pathValue params) = target at *
  -- a refused read returns nothing
  have hallows : ∀ name value, tool.Returns params' fs' name value → fs.refuses (.read target) = none := by
    rintro name value ⟨output', fs'', hok, -⟩
    cases href : fs.refuses (.read target) with
    | none => rfl
    | some exc =>
      rw [hrun', tool.readFile_refused hnode hsize hsuffix (hrefuses ▸ href)] at hok
      cases hok
  constructor
  · intro hjson hvalue hloads
    refine ⟨hallows _ _, fun hnone => ?_⟩
    unfold textFor at htext
    rw [if_pos hjson] at htext
    have hlines : translateNewlines t = t :=
      translateNewlines_eq_self_iff.2 (Value.carriageReturn_notMem_dumps _ _ hvalue htext)
    obtain ⟨fs'', hok⟩ := tool.readFile_json hnode hsize hjson (hrefuses ▸ hnone) (decodeUtf8_encodeUtf8 hbytes)
      (hlines.symm ▸ hloads t htext)
    exact ⟨_, fs'', by rw [hrun', hok], result_get? ..⟩
  · intro hjson s hcontent
    unfold textFor at htext
    rw [hcontent, if_neg hjson] at htext
    obtain rfl : s = t := Except.ok.inj htext
    have hplain := (List.mem_cons.1 hsuffix).resolve_left hjson
    have hreturns : fs.refuses (.read target) = none → ∃ fs'', tool.run params' fs' = .ok (result "read" target
        [("resource_type", .str (resourceType (tool.suffixOf target))), ("text", .str (translateNewlines s))]) fs'' := by
      intro hnone
      obtain ⟨fs'', hok⟩ := tool.readFile_plain hnode hsize hplain (hrefuses ▸ hnone)
      exact ⟨fs'', by rw [hrun', hok, decodeIgnoring_encodeUtf8 hbytes]⟩
    constructor
    · intro h
      have hnone := hallows _ _ h
      refine ⟨hnone, translateNewlines_eq_self_iff.1 ?_⟩
      obtain ⟨output', fs'', hok, hget⟩ := h
      obtain ⟨fs₂, hok'⟩ := hreturns hnone
      rw [hok'] at hok
      cases hok
      rw [result_get?] at hget
      exact Value.str.inj (Option.some.inj hget)
    · rintro ⟨hnone, hlines⟩
      obtain ⟨fs'', hok⟩ := hreturns hnone
      refine ⟨_, fs'', hok, ?_⟩
      rw [result_get?, translateNewlines_eq_self_iff.2 hlines]

/-- A small JSON value. -/
def payload : Value Empty := .dict [(Text.of "a", .int 1), (Text.of "b", .str (Text.of "x"))]

def payloadText : Text := Text.of "\x7b\n  \"a\": 1,\n  \"b\": \"x\"\n\x7d"

/-- The functions of the language on the text of `payload`. -/
def payloadLibraries : FileLibraries Empty :=
  { plainLibraries with
    loads := fun t =>
      if t = payloadText then .ok payload
      else .error ⟨.valueError, "Expecting value: line 1 column 1 (char 0)"⟩ }

/-- The payload comes back. -/
theorem payload_returns : ∃ output fs',
    (dataTool payloadLibraries).run (fileParams "write" "data/sample.json" payload) (dataFiles []) = .ok output fs' ∧
      (dataTool payloadLibraries).Returns (fileParams "read" "data/sample.json" .none) fs' "data" payload := by
  have hreturned : returned ((dataTool payloadLibraries).run (fileParams "write" "data/sample.json" payload)
      (dataFiles [])) = true := by decide +kernel
  cases hrun : (dataTool payloadLibraries).run (fileParams "write" "data/sample.json" payload) (dataFiles []) with
  | error exc fs' =>
    rw [hrun] at hreturned
    cases hreturned
  | ok output fs' =>
    refine ⟨output, fs', rfl, ?_⟩
    have hread : (dataTool payloadLibraries).operationOf (fileParams "read" "data/sample.json" .none) = Text.of "read" := by
      decide +kernel
    refine ((round_trip_iff (dataTool payloadLibraries) (by decide +kernel) hread (by decide +kernel)
      (by decide +kernel) hrun ?_).1
      (by decide +kernel) rfl ?_).2 rfl
    · intro t bytes htext hbytes
      obtain rfl : payloadText = t := Except.ok.inj htext
      have hlength : (encodeUtf8 payloadText).map List.length = some 24 := by decide +kernel
      rw [hbytes, Option.map_some, Option.some.injEq] at hlength
      show (bytes.length : Int) ≤ 10 * 1024 * 1024
      omega
    · intro t ht
      obtain rfl : payloadText = t := Except.ok.inj ht
      rfl

/-- A text with a carriage return comes back without it. -/
theorem carriage_return_lost :
    let tool := dataTool plainLibraries
    ∃ output fs₁ output' fs₂,
      tool.run (fileParams "write" "data/lines.csv" (.str (Text.of "a\r\nb"))) (dataFiles []) = .ok output fs₁ ∧
        tool.run (fileParams "read" "data/lines.csv" .none) fs₁ = .ok output' fs₂ ∧
        output'.get? (Text.of "text") = some (.str (Text.of "a\nb")) :=
  ⟨_, _, _, _, rfl, rfl, rfl⟩

end FileTool

end Ochestrate
