import Ochestrate.Tools.FileTool

/-!
# Where the file tool reaches

A path text is resolved to a place of names, and every call that follows is
about that place or makes a directory above it (`Confined`); only the conversion
of a `.doc` file works in a temporary directory as well (`Temporary`).
`run_confined` says so of every run on an allowed path, and that a run on any
other path makes no call; in `conversion_elsewhere` a conversion reads outside
all allowed directories.
-/

namespace Ochestrate

namespace FileTool

open FileSystem

variable {κ : Type} (tool : FileTool κ)

/-- A call about the target, or one that makes a directory above it that was
missing. -/
def Confined (fs : FileSystem) (target : Place) (c : FileCall) : Prop :=
  c = .read target ∨ c = .write target ∨ c = .list target ∨
    ∃ dir, c = .makeDirectory dir ∧ dir <+: target.dropLast ∧ fs.node? dir = none

/-- A call in a new directory for the conversion of a document. -/
def Temporary (fs : FileSystem) (c : FileCall) : Prop :=
  fs.node? (tool.libraries.temporaryDirectory fs) = none ∧ tool.libraries.temporaryDirectory fs <+: c.place

/-- A `.doc` file is read. -/
def Converts (params : Values κ) : Prop :=
  tool.operationOf params = Text.of "read" ∧ tool.suffixOf (tool.target (tool.pathValue params)) = Text.of ".doc"

section Acts

variable {P : FileCall → Prop} {target : Place}

theorem save_acts (hp : P (.write target)) (saved : Saved) : Along (Acts P) (save target saved) (fun _ => True) := by
  refine Along.of_finalState fun fs => ?_
  cases saved with
  | refused exc => exact .refl fs
  | broken exc written =>
    simp only [save]
    obtain ⟨-, exc', herror⟩ | ⟨-, -, hok⟩ := openForWriting_cases target fs
    · rw [bind_error herror]
      exact .refl fs
    · rw [bind_ok hok]
      exact opened_set_acts hp written
  | saved bytes =>
    simp only [save]
    obtain ⟨-, exc, herror⟩ | ⟨-, -, hok⟩ := openForWriting_cases target fs
    · rw [bind_error herror]
      exact .refl fs
    · obtain ⟨content, hcontent⟩ := writeBytes_final target bytes (fs.opened target)
      rw [bind_ok hok, hcontent]
      exact opened_set_acts hp content

theorem ofExcept_acts {α : Type} (x : Except Exc α) :
    Along (Acts P) (MonadExcept.ofExcept x : EStateM Exc FileSystem α) (fun _ => True) := by
  cases x with
  | error exc => exact Acts.throw exc
  | ok a => exact Acts.pure trivial

theorem listDirectory_acts (hp : P (.list target)) :
    Along (Acts P) (listDirectory target : EStateM Exc FileSystem (Values κ)) (fun _ => True) := by
  unfold listDirectory
  refine Acts.bind (Along.get .refl) fun fs _ => ?_
  split
  · exact Acts.bind (Acts.throw _ (Q := fun _ => True)) fun _ _ =>
      Acts.bind (iterdir_acts hp) fun _ _ => Acts.pure trivial
  · exact Acts.bind (iterdir_acts hp) fun _ _ => Acts.pure trivial

/-- A write makes the directories above its target and then is about it. -/
theorem writeFile_acts (content : Value κ) (fs : FileSystem) :
    Acts (Confined fs target) fs (finalState (tool.writeFile target content fs)) := by
  have hwrite : Confined fs target (.write target) := .inr (.inl rfl)
  have hdirs : Acts (Confined fs target) fs (finalState (makeDirs target.dropLast fs)) :=
    (makeDirs_acts target.dropLast fs).mono fun c hc => .inr (.inr (.inr hc))
  unfold writeFile
  refine hdirs.trans (Along.after (R := Acts (Confined fs target)) (P := fun _ => True) Acts.refl (fun _ => ?_) fs)
  dsimp only
  split
  · exact Acts.bind (ofExcept_acts _) fun t _ => Acts.bind (writeText_acts hwrite t) fun _ _ => Acts.pure trivial
  split
  · exact Acts.bind (ofExcept_acts _) fun t _ => Acts.bind (writeText_acts hwrite t) fun _ _ => Acts.pure trivial
  split
  · exact Acts.bind (save_acts hwrite _) fun _ _ => Acts.pure trivial
  split
  · exact Acts.throw _
  split
  · exact Acts.bind (save_acts hwrite _) fun _ _ => Acts.pure trivial
  split
  · exact Acts.throw _
  · exact Acts.throw _

/-! ## A conversion -/

section Conversion

variable {source tmp : Place}

theorem makeTemporary_acts (hp : ∀ c : FileCall, tmp <+: c.place → P c) :
    Along (Acts P) (makeTemporary tmp) (fun _ => True) := by
  unfold makeTemporary
  refine Acts.bind (Along.get .refl) fun fs _ => ?_
  have hmake := effect_acts (P := P) (c := .makeDirectory tmp) (hp _ List.prefix_rfl)
    (f := fun fs => fs.set tmp .directory) (fun _ => rfl) fun fs p hne => node?_set_ne fs hne _
  split
  · exact Acts.bind (Acts.throw _ (Q := fun _ => True)) fun _ _ => hmake
  · exact hmake

theorem removeTree_acts (hp : ∀ c : FileCall, tmp <+: c.place → P c) :
    Along (Acts P) (removeTree tmp) (fun _ => True) := by
  have hnames : ∀ names : List Text, Along (Acts P) (names.forM fun name => remove (tmp ++ [name])) (fun _ => True) := by
    intro names
    induction names with
    | nil => exact Acts.pure trivial
    | cons name names ih =>
      exact Acts.bind (remove_acts (hp _ (List.prefix_append tmp [name]))) fun _ _ => ih
  unfold removeTree
  refine Acts.bind (iterdir_acts (hp _ List.prefix_rfl)) fun names _ => ?_
  exact Acts.bind (hnames names) fun _ _ => remove_acts (hp _ List.prefix_rfl)

theorem soffice_acts (hp : ∀ c : FileCall, tmp <+: c.place → P c) (hsource : P (.read source))
    (document : Option (List UInt8)) : Along (Acts P) (soffice source tmp document) (fun _ => True) := by
  refine Along.modify fun fs => ?_
  cases document with
  | none => exact .one hsource rfl fun _ _ => rfl
  | some bytes =>
    have hread : Acts P fs { fs with calls := fs.calls ++ [.read source] } := .one hsource rfl fun _ _ => rfl
    have hwrite := hp (.write (tmp ++ [source.stem ++ Text.of ".docx"])) (List.prefix_append _ _)
    refine hread.trans (.one hwrite ?_ fun p hne => ?_)
    · simp
    · exact node?_set_ne fs hne _

theorem convert_acts (hp : ∀ c : FileCall, tmp <+: c.place → P c) (hsource : P (.read source)) :
    Along (Acts P) (tool.convert source tmp) (fun _ => True) := by
  unfold convert
  refine Acts.bind (Along.get .refl) fun fs _ => ?_
  split
  · exact Acts.throw _
  · exact Acts.throw _
  · exact Acts.throw _
  · refine Acts.bind (soffice_acts hp hsource _) fun _ _ => Acts.bind (Along.get .refl) fun fs' _ => ?_
    have hread := readNode_acts (P := P) (hp (.read (tmp ++ [source.stem ++ Text.of ".docx"])) (List.prefix_append _ _))
    dsimp only
    split
    · exact Acts.bind (Acts.throw _ (Q := fun _ => True)) fun _ _ =>
        Acts.bind hread fun _ _ => ofExcept_acts _
    · exact Acts.bind hread fun _ _ => ofExcept_acts _

/-- A conversion reads its source and works in a new directory. -/
theorem readDocViaConversion_acts (fs : FileSystem) :
    Acts (fun c => c = .read source ∨ tool.Temporary fs c) fs (finalState (tool.readDocViaConversion source fs)) := by
  unfold readDocViaConversion
  rw [get_bind]
  cases hnew : fs.node? (tool.libraries.temporaryDirectory fs) with
  | some node =>
    have hexists : makeTemporary (tool.libraries.temporaryDirectory fs) fs =
        .error (fileExists (tool.libraries.temporaryDirectory fs)) fs := by
      unfold makeTemporary
      rw [get_bind, hnew]
      rfl
    rw [bind_error hexists]
    exact .refl fs
  | none =>
    have hp : ∀ c : FileCall, tool.libraries.temporaryDirectory fs <+: c.place →
        c = .read source ∨ tool.Temporary fs c := fun c hc => .inr ⟨hnew, hc⟩
    refine Along.finalState (Q := fun _ => True) (Acts.bind (makeTemporary_acts hp) fun _ _ => ?_) fs
    refine Acts.bind (Along.tryCatch (fun _ _ _ => .trans) (tool.convert_acts hp (.inl rfl)) fun exc => ?_) fun text _ => ?_
    · exact Acts.bind (removeTree_acts hp) fun _ _ => Acts.throw exc
    · exact Acts.bind (removeTree_acts hp) fun _ _ => Acts.pure trivial

end Conversion

/-! ## A run -/

/-- A read is of its target, but for the conversion of a document. -/
theorem readFile_acts (fs : FileSystem) :
    Acts (fun c => Confined fs target c ∨ tool.suffixOf target = Text.of ".doc" ∧ tool.Temporary fs c) fs
      (finalState (tool.readFile target fs)) := by
  unfold readFile
  obtain hok | ⟨exc, herror⟩ := tool.guardFileSize_cases target fs
  · rw [bind_ok hok]
    by_cases hdoc : tool.suffixOf target = Text.of ".doc"
    · have hjson : Text.of ".doc" ≠ Text.of ".json" := by decide
      have htext : Text.of ".doc" ∉ [Text.of ".txt", Text.of ".csv"] := by decide
      have hdocx : Text.of ".doc" ≠ Text.of ".docx" := by decide
      simp only [hdoc, hjson, htext, hdocx, ↓reduceIte, true_and]
      have hread : Acts (fun c => Confined fs target c ∨ tool.Temporary fs c) fs
          (finalState (tool.readDocViaConversion target fs)) :=
        (tool.readDocViaConversion_acts fs).mono fun c hc => hc.imp .inl id
      refine hread.trans (Along.after (R := Acts _) (P := fun _ => True) Acts.refl (fun text => ?_) fs)
      exact Acts.pure trivial
    · simp only [hdoc, false_and, or_false, ↓reduceIte]
      have hread : Confined fs target (.read target) := .inl rfl
      refine Along.finalState (Q := fun _ => True) ?_ fs
      split
      · exact Acts.bind (readText_acts hread) fun _ _ => Acts.bind (ofExcept_acts _) fun _ _ => Acts.pure trivial
      split
      · exact Acts.bind (readTextIgnoring_acts hread) fun _ _ => Acts.pure trivial
      split
      · exact Acts.bind (readNode_acts hread) fun _ _ => Acts.bind (ofExcept_acts _) fun _ _ => Acts.pure trivial
      split
      · exact Acts.bind (readNode_acts hread) fun _ _ => Acts.bind (ofExcept_acts _) fun _ _ => Acts.pure trivial
      split
      · exact Acts.bind (readNode_acts hread) fun _ _ => Acts.bind (ofExcept_acts _) fun _ _ => Acts.pure trivial
      · exact Acts.throw _
  · rw [bind_error herror]
    exact .refl fs

theorem operate_acts (operation : Text) (params : Values κ) (fs : FileSystem) :
    Acts (fun c => Confined fs target c ∨ (operation = Text.of "read" ∧ tool.suffixOf target = Text.of ".doc") ∧
      tool.Temporary fs c) fs (finalState (tool.operate operation target params fs)) := by
  unfold operate
  split
  · have hlist : Confined fs target (.list target) := .inr (.inr (.inl rfl))
    exact (listDirectory_acts (κ := κ) (.inl hlist)).finalState fs
  split
  · next hread => exact (tool.readFile_acts fs).mono fun c hc => hc.imp id fun h => ⟨⟨hread, h.1⟩, h.2⟩
  split
  · exact (tool.writeFile_acts _ fs).mono fun c hc => .inl hc
  · exact .refl fs

end Acts

/-- For every path text that is not blank: its target is a place of names; if an
allowed directory is on the way to it, every call of the run is about it or
makes a missing directory above it, or is part of the conversion of a `.doc`
file, in a new directory; and otherwise the run raises and does nothing. -/
theorem run_confined (params : Values κ) (fs : FileSystem) (hpath : tool.pathValue params ≠ []) :
    (tool.target (tool.pathValue params)).Normal ∧
      (tool.Allowed (tool.target (tool.pathValue params)) →
        Acts (fun c => Confined fs (tool.target (tool.pathValue params)) c ∨
          tool.Converts params ∧ tool.Temporary fs c) fs (finalState (tool.run params fs))) ∧
      (¬ tool.Allowed (tool.target (tool.pathValue params)) → ∃ exc, tool.run params fs = .error exc fs) := by
  refine ⟨tool.target_normal _, fun hallowed => ?_, fun hnot => ?_⟩
  · have hallowed := (tool.isPathAllowed_iff _).2 hallowed
    cases hencodable : Place.encodable (tool.pathValue params) with
    | true =>
      rw [tool.run_allowed hpath hencodable hallowed]
      exact tool.operate_acts _ params fs
    | false =>
      obtain ⟨exc, herror⟩ := tool.run_refused fs (.inr (.inl hencodable))
      rw [herror]
      exact .refl fs
  · refine tool.run_refused fs (.inr (.inr ?_))
    rw [← Bool.not_eq_true, tool.isPathAllowed_iff]
    exact hnot

/-! ## Two reads -/

/-- The target of a text with steps up and empty components. -/
theorem notes_confined :
    let tool := dataTool plainLibraries
    let params := fileParams "read" "data//old/.././notes.txt/" .none
    let fs := dataFiles [("notes.txt", [104, 105])]
    (tool.target (tool.pathValue params)).Normal ∧
      (tool.Allowed (tool.target (tool.pathValue params)) →
        Acts (fun c => Confined fs (tool.target (tool.pathValue params)) c ∨
          tool.Converts params ∧ tool.Temporary fs c) fs (finalState (tool.run params fs))) ∧
      (¬ tool.Allowed (tool.target (tool.pathValue params)) → ∃ exc, tool.run params fs = .error exc fs) :=
  (dataTool plainLibraries).run_confined (fileParams "read" "data//old/.././notes.txt/" .none)
    (dataFiles [("notes.txt", [104, 105])]) (by decide)

/-- To read an allowed `.doc` file, a directory elsewhere is made and a document
in it is read. -/
theorem conversion_elsewhere :
    let tool := dataTool plainLibraries
    let params := fileParams "read" "data/old.doc" .none
    let r := tool.run params (dataFiles [("old.doc", [208, 207])])
    tool.pathValue params = Text.of "data/old.doc" ∧ tool.Allowed (tool.target (tool.pathValue params)) ∧
      returned r = true ∧
      (finalState r).calls = [
        .makeDirectory [Text.of "tmp", Text.of "tmpk3x1"],
        .read [Text.of "srv", Text.of "ws", Text.of "data", Text.of "old.doc"],
        .write [Text.of "tmp", Text.of "tmpk3x1", Text.of "old.docx"],
        .read [Text.of "tmp", Text.of "tmpk3x1", Text.of "old.docx"],
        .list [Text.of "tmp", Text.of "tmpk3x1"],
        .remove [Text.of "tmp", Text.of "tmpk3x1", Text.of "old.docx"],
        .remove [Text.of "tmp", Text.of "tmpk3x1"]] ∧
      ¬ tool.Allowed [Text.of "tmp", Text.of "tmpk3x1", Text.of "old.docx"] := by
  refine ⟨by decide, ⟨_, List.mem_singleton_self _, by decide⟩, by decide, by decide, ?_⟩
  rintro ⟨allowed, hmem, hprefix⟩
  rw [List.mem_singleton.1 hmem] at hprefix
  exact absurd hprefix (by decide)

end FileTool

end Ochestrate
