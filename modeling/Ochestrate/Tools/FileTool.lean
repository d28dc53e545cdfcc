import Ochestrate.Framework.Strings
import Ochestrate.Schemas.Value
import Ochestrate.Tools.Security

/-!
# The file tool

`app/tools/file_tool.py`: a path text is resolved against the workspace and
checked, and then the file or directory there is read, written or listed by its
extension. What the libraries for documents do with bytes, and what the program
`soffice` does, are parameters.
-/

namespace Ochestrate

/-- How a library saves a document: it raises before it opens the file or after
that, or it returns. -/
inductive Saved
  | refused (exc : Exc)
  | broken (exc : Exc) (written : List UInt8)
  | saved (bytes : List UInt8)

/-- How `subprocess.run(cmd, check=True, …)` goes for `soffice`, with the
document that it leaves behind. -/
inductive Conversion
  | missing
  | failed (stderr : Text)
  | raised (exc : Exc)
  | done (document : Option (List UInt8))

/-- Functions of the language and of the libraries for documents. -/
structure FileLibraries (κ : Type) extends JsonWriter κ where
  /-- `str(value)` -/
  str : Value κ → Text
  /-- `bool(value)` of a value that is not a JSON value -/
  truthyOther : κ → Bool
  /-- `text.lower()` -/
  lower : Text → Text
  /-- `json.loads(text)` -/
  loads : Text → Except Exc (Value κ)
  /-- The paragraphs of `docx.Document(path)` that are not blank. -/
  docxText : FileNode → Except Exc Text
  /-- `docx.Document()` with paragraphs -/
  docx : List Text → Saved
  /-- `pd.read_excel(path).to_dict(orient="records")` -/
  excelRows : FileNode → Except Exc (Value κ)
  /-- `pd.DataFrame(rows).to_excel(path, index=False)`, by the path's suffix -/
  excel : Text → Value κ → Saved
  /-- The text of the pages of `PdfReader(path)`. -/
  pdfText : FileNode → Except Exc Text
  /-- Where `tempfile.TemporaryDirectory()` makes a directory. -/
  temporaryDirectory : FileSystem → Place
  soffice : FileSystem → Place → Conversion
  str_str (t : Text) : str (.str t) = t

structure FileTool (κ : Type) where
  libraries : FileLibraries κ
  security : ToolSecurityConfig
  workspace : Place
  /-- `workspace.resolve()` -/
  workspace_normal : workspace.Normal

namespace FileTool

open FileSystem

variable {κ : Type} (tool : FileTool κ)

/-- A dictionary of parameters or results. -/
abbrev Values (κ : Type) := Dict Text (Value κ)

/-- `bool(value)` -/
def truthy : Value κ → Bool
  | .none => false
  | .bool b => b
  | .int z => z ≠ 0
  | .float q => q ≠ 0
  | .str t => !t.isEmpty
  | .list xs => !xs.isEmpty
  | .dict fields => !fields.isEmpty
  | .other o => tool.libraries.truthyOther o

/-- `params.get(name)` -/
def get (params : Values κ) (name : String) : Value κ := (params.get? (Text.of name)).getD .none

/-- `text.strip()` -/
def stripText (t : Text) : Text :=
  let space := fun c : CodePoint => c.char?.any isSpace
  ((t.dropWhile space).reverse.dropWhile space).reverse

def operationOf (params : Values κ) : Text :=
  tool.libraries.lower (tool.libraries.str ((params.get? (Text.of "operation")).getD (.str (Text.of "read"))))

/-- `str(params.get("resource_path") or params.get("path") or "").strip()` -/
def pathValue (params : Values κ) : Text :=
  stripText (tool.libraries.str
    (if tool.truthy (get params "resource_path") then get params "resource_path"
    else if tool.truthy (get params "path") then get params "path"
    else .str []))

/-- The place of a path text. -/
def target (path : Text) : Place := Place.resolve (Place.join tool.workspace path)

/-- `(self._workspace / Path(path_value)).resolve()`: the system is asked about
each component. -/
def resolveTarget (path : Text) : EStateM Exc FileSystem Place :=
  if Place.encodable path then return tool.target path
  else throw ⟨.valueError, "embedded null character in path"⟩

/-- The suffix in lower case. -/
def suffixOf (target : Place) : Text := tool.libraries.lower target.suffix

/-- `suffix.lstrip(".")` -/
def resourceType (suffix : Text) : Text := suffix.dropWhile (· = Place.dot)

/-- The entries that all results have. -/
def result (operation : String) (target : Place) (entries : List (String × Value κ)) : Values κ :=
  Dict.empty.update ((("operation", Value.str (Text.of operation)) :: ("path", .str target.toText) :: entries).map
    fun entry => (Text.of entry.1, entry.2))

def guardFileSize (target : Place) : EStateM Exc FileSystem PUnit := do
  let fs ← MonadState.get
  let limit := tool.security.maxFileSizeMb * 1024 * 1024
  match fs.node? target with
  | none => throw ⟨.fileNotFoundError, target.toText.shown⟩
  | some node =>
    if limit < (fs.sizeOf target node : Int) then
      throw ⟨.valueError, "file exceeds max size limit (" ++ toString tool.security.maxFileSizeMb ++ "MB)"⟩

/-- `tempfile.mkdtemp()` -/
def makeTemporary (place : Place) : EStateM Exc FileSystem PUnit := do
  let fs ← MonadState.get
  if (fs.node? place).isSome then throw (fileExists place)
  call (.makeDirectory place)
  modify fun fs => fs.set place .directory

/-- `shutil.rmtree(place)` of a directory without subdirectories. -/
def removeTree (place : Place) : EStateM Exc FileSystem PUnit := do
  let names ← iterdir place
  names.forM fun name => remove (place ++ [name])
  remove place

/-- The program reads its source and leaves the document in the directory. -/
def soffice (source tmp : Place) (document : Option (List UInt8)) : EStateM Exc FileSystem PUnit :=
  modify fun fs =>
    match document with
    | none => { fs with calls := fs.calls ++ [.read source] }
    | some bytes =>
      let converted := tmp ++ [source.stem ++ Text.of ".docx"]
      { fs.set converted (.file bytes) with calls := fs.calls ++ [.read source, .write converted] }

/-- The body of `with tempfile.TemporaryDirectory() as tmp`. -/
def convert (source tmp : Place) : EStateM Exc FileSystem Text := do
  match tool.libraries.soffice (← MonadState.get) source with
  | .missing =>
    throw ⟨.other, "'.doc' requires conversion tool (LibreOffice soffice). Install it and retry."⟩
  | .failed stderr => throw ⟨.other, "failed to convert .doc file: " ++ stderr.shown⟩
  | .raised exc => throw exc
  | .done document =>
    soffice source tmp document
    let converted := tmp ++ [source.stem ++ Text.of ".docx"]
    if ((← MonadState.get).node? converted).isNone then
      throw ⟨.other, "doc conversion finished but output file was not produced"⟩
    MonadExcept.ofExcept (tool.libraries.docxText (← readNode converted))

def readDocViaConversion (source : Place) : EStateM Exc FileSystem Text := do
  let tmp := tool.libraries.temporaryDirectory (← MonadState.get)
  makeTemporary tmp
  let text ← tryCatch (tool.convert source tmp) fun exc => do
    removeTree tmp
    throw exc
  removeTree tmp
  return text

def readFile (target : Place) : EStateM Exc FileSystem (Values κ) := do
  tool.guardFileSize target
  let suffix := tool.suffixOf target
  if suffix = Text.of ".json" then
    let data ← MonadExcept.ofExcept (tool.libraries.loads (← readText target))
    return result "read" target [("resource_type", .str (Text.of "json")), ("data", data)]
  else if suffix ∈ [Text.of ".txt", Text.of ".csv"] then
    let text ← readTextIgnoring target
    return result "read" target [("resource_type", .str (resourceType suffix)), ("text", .str text)]
  else if suffix = Text.of ".docx" then
    let text ← MonadExcept.ofExcept (tool.libraries.docxText (← readNode target))
    return result "read" target [("resource_type", .str (Text.of "docx")), ("text", .str text)]
  else if suffix = Text.of ".doc" then
    let text ← tool.readDocViaConversion target
    return result "read" target [("resource_type", .str (Text.of "doc")), ("text", .str text)]
  else if suffix ∈ [Text.of ".xlsx", Text.of ".xls"] then
    let rows ← MonadExcept.ofExcept (tool.libraries.excelRows (← readNode target))
    return result "read" target [("resource_type", .str (Text.of "excel")), ("rows", rows)]
  else if suffix = Text.of ".pdf" then
    let text ← MonadExcept.ofExcept (tool.libraries.pdfText (← readNode target))
    return result "read" target [("resource_type", .str (Text.of "pdf")), ("text", .str text)]
  else throw ⟨.valueError, "unsupported file extension '" ++ suffix.shown ++ "'"⟩

/-- A library saves a document. -/
def save (target : Place) : Saved → EStateM Exc FileSystem PUnit
  | .refused exc => throw exc
  | .broken exc written => do
    openForWriting target
    modify fun fs => fs.set target (.file written)
    throw exc
  | .saved bytes => do
    openForWriting target
    writeBytes target bytes

/-- The paragraphs of a new document. -/
def paragraphs (content : Value κ) : List Text :=
  match content with
  | .list xs => xs.map tool.libraries.str
  | .none => [[]]
  | _ => [tool.libraries.str content]

/-- The rows of a new sheet. -/
def rows (content : Value κ) : Value κ :=
  match content with
  | .list xs => .list xs
  | .dict fields => .list [.dict fields]
  | _ => .list [.dict [(Text.of "value", content)]]

/-- The text for a `.json`, `.txt` or `.csv` file. -/
def textFor (suffix : Text) (content : Value κ) : Except Exc Text :=
  if suffix = Text.of ".json" then content.dumps tool.libraries.toJsonWriter (some 2)
  else
    match content with
    | .str t => .ok t
    | _ => content.dumps tool.libraries.toJsonWriter none

def writeFile (target : Place) (content : Value κ) : EStateM Exc FileSystem (Values κ) := do
  makeDirs target.dropLast
  let suffix := tool.suffixOf target
  if suffix = Text.of ".json" then
    writeText target (← MonadExcept.ofExcept (tool.textFor suffix content))
    return result "write" target [("resource_type", .str (Text.of "json")), ("status", .str (Text.of "ok"))]
  else if suffix ∈ [Text.of ".txt", Text.of ".csv"] then
    writeText target (← MonadExcept.ofExcept (tool.textFor suffix content))
    return result "write" target [("resource_type", .str (resourceType suffix)), ("status", .str (Text.of "ok"))]
  else if suffix = Text.of ".docx" then
    save target (tool.libraries.docx (tool.paragraphs content))
    return result "write" target [("resource_type", .str (Text.of "docx")), ("status", .str (Text.of "ok"))]
  else if suffix = Text.of ".doc" then
    throw ⟨.valueError, "writing '.doc' is not supported; write .docx instead"⟩
  else if suffix ∈ [Text.of ".xlsx", Text.of ".xls"] then
    save target (tool.libraries.excel suffix (rows content))
    return result "write" target [("resource_type", .str (Text.of "excel")), ("status", .str (Text.of "ok"))]
  else if suffix = Text.of ".pdf" then
    throw ⟨.valueError, "pdf write is not supported; export to txt or json"⟩
  else throw ⟨.valueError, "unsupported file extension '" ++ suffix.shown ++ "'"⟩

def listDirectory (target : Place) : EStateM Exc FileSystem (Values κ) := do
  if ¬ (← MonadState.get).isDirectory target then
    throw ⟨.valueError, "list operation requires an existing directory path"⟩
  let entries ← iterdir target
  return result "list" target [("entries", .list (entries.map .str))]

/-- What is done with an allowed path. -/
def operate (operation : Text) (target : Place) (params : Values κ) : EStateM Exc FileSystem (Values κ) :=
  if operation = Text.of "list" then listDirectory target
  else if operation = Text.of "read" then tool.readFile target
  else if operation = Text.of "write" then tool.writeFile target (get params "content")
  else throw ⟨.valueError, "unsupported operation '" ++ operation.shown ++ "'"⟩

def run (params : Values κ) : EStateM Exc FileSystem (Values κ) := do
  let operation := tool.operationOf params
  let path := tool.pathValue params
  if path = [] then throw ⟨.valueError, "resource_path is required for file tool"⟩
  let target ← tool.resolveTarget path
  if ¬ tool.security.isPathAllowed target then
    throw ⟨.permissionError, "path '" ++ target.toText.shown ++ "' is outside allowed directories"⟩
  tool.operate operation target params

/-! ## Whether a path is let through -/

/-- An allowed directory is on the way to the place. -/
def Allowed (place : Place) : Prop := ∃ allowed ∈ tool.security.allowedDirectories, allowed <+: place

theorem target_normal (path : Text) : (tool.target path).Normal := tool.workspace_normal.resolve_join path

theorem isPathAllowed_iff (path : Text) :
    tool.security.isPathAllowed (tool.target path) = true ↔ tool.Allowed (tool.target path) := by
  unfold ToolSecurityConfig.isPathAllowed Allowed
  dsimp only
  rw [(tool.target_normal path).resolve_eq, List.any_eq_true]
  simp only [List.isPrefixOf_iff_prefix]

/-- A path that is blank, that the system has no bytes for or that is not allowed
is refused. -/
theorem run_refused {params : Values κ} (fs : FileSystem)
    (h : tool.pathValue params = [] ∨ Place.encodable (tool.pathValue params) = false ∨
      tool.security.isPathAllowed (tool.target (tool.pathValue params)) = false) :
    ∃ exc, tool.run params fs = .error exc fs := by
  unfold run
  by_cases hpath : tool.pathValue params = []
  · exact ⟨_, by simp only [hpath, ↓reduceIte]; rfl⟩
  · obtain h | h | h := h
    · exact absurd h hpath
    · refine ⟨⟨.valueError, "embedded null character in path"⟩, ?_⟩
      simp only [hpath, ↓reduceIte, resolveTarget, h]
      rfl
    · by_cases hencodable : Place.encodable (tool.pathValue params) = true
      · refine ⟨⟨.permissionError, "path '" ++ (tool.target (tool.pathValue params)).toText.shown ++
          "' is outside allowed directories"⟩, ?_⟩
        simp only [hpath, ↓reduceIte, resolveTarget, hencodable, pure_bind, h]
        rfl
      · refine ⟨⟨.valueError, "embedded null character in path"⟩, ?_⟩
        simp only [hpath, ↓reduceIte, resolveTarget, hencodable]
        rfl

theorem run_allowed {params : Values κ} (hpath : tool.pathValue params ≠ [])
    (hencodable : Place.encodable (tool.pathValue params) = true)
    (hallowed : tool.security.isPathAllowed (tool.target (tool.pathValue params)) = true) :
    tool.run params = tool.operate (tool.operationOf params) (tool.target (tool.pathValue params)) params := by
  unfold run
  simp only [hpath, ↓reduceIte, resolveTarget, hencodable, pure_bind, hallowed, not_true_eq_false]

/-- The size of a file is looked up. -/
theorem guardFileSize_cases (target : Place) (fs : FileSystem) :
    tool.guardFileSize target fs = .ok ⟨⟩ fs ∨ ∃ exc, tool.guardFileSize target fs = .error exc fs := by
  unfold guardFileSize
  rw [get_bind]
  cases fs.node? target with
  | none => exact .inr ⟨_, rfl⟩
  | some node =>
    by_cases hsize : tool.security.maxFileSizeMb * 1024 * 1024 < (fs.sizeOf target node : Int)
    · simp only [hsize, ↓reduceIte]
      exact .inr ⟨_, rfl⟩
    · simp only [hsize, ↓reduceIte]
      exact .inl rfl

end FileTool

/-! ## A workspace -/

/-- The functions of the language on texts without upper case letters, and a
program that makes a document of two bytes. -/
def plainLibraries : FileLibraries Empty where
  floatText _ := []
  other _ _ o := nomatch o
  floatText_line _ := List.not_mem_nil
  str value :=
    match value with
    | .str t => t
    | _ => []
  truthyOther o := nomatch o
  lower t := t
  loads _ := .error ⟨.valueError, "Expecting value: line 1 column 1 (char 0)"⟩
  docxText _ := .ok (Text.of "minutes")
  docx _ := .saved [80, 75]
  excelRows _ := .ok (.list [])
  excel _ _ := .saved [80, 75]
  pdfText _ := .ok []
  temporaryDirectory _ := [Text.of "tmp", Text.of "tmpk3x1"]
  soffice _ _ := .done (some [80, 75])
  str_str _ := rfl

/-- The tool of a workspace, for the files below `data`. -/
def dataTool (libraries : FileLibraries Empty) : FileTool Empty where
  libraries
  security := { allowedDirectories := [[Text.of "srv", Text.of "ws", Text.of "data"]], allowedDomains := ["*"] }
  workspace := [Text.of "srv", Text.of "ws"]
  workspace_normal := by
    unfold Place.Normal
    decide

/-- The file system with the directory `data` and files in it. -/
def dataFiles (files : List (String × List UInt8)) : FileSystem where
  nodes := (Dict.empty.update [([Text.of "srv"], .directory), ([Text.of "srv", Text.of "ws"], .directory),
    ([Text.of "srv", Text.of "ws", Text.of "data"], .directory), ([Text.of "tmp"], .directory)]).update
      (files.map fun file => ([Text.of "srv", Text.of "ws", Text.of "data", Text.of file.1], .file file.2))

/-- The parameters of an operation. -/
def fileParams (operation path : String) (content : Value Empty) : FileTool.Values Empty :=
  Dict.empty.update [(Text.of "operation", .str (Text.of operation)), (Text.of "resource_path", .str (Text.of path)),
    (Text.of "content", content)]

end Ochestrate
