import Mathlib.Data.List.Infix
import Mathlib.Logic.Function.Basic

/-!
# The package of the application

`Package::Package()` (`nw_package.cc`) looks for the application in up to five places: the
executable itself, its folder, `package.nw` in the folder, the path of `--nwapp` and the first
argument of the command line. A place that is a folder is read as it is; anything else is taken for
a zip file and extracted to a temporary directory, the same one for all places.

* **`CommandLine`** — what `base::CommandLine` makes of the arguments;
* **`System`** — the file system, paths and JSON;
* **`initFromPath`** — one place is tried;
* **`load`** — `Package::Package()`.

The switches that the manifest of an accepted package adds to the command line are left out.
-/

namespace NodeWebkit

/-! ## The command line -/

/-- The arguments as passed, with the program, and how an argument is read: `isSwitch` gives the key
and the value of a switch. -/
structure CommandLine where
  originalArgv : List String
  trim : String → String
  isSwitch : String → Option (String × String)

namespace CommandLine

inductive Token where
  | switch (key value : String)
  /-- The first `--`, after which there are no switches. -/
  | terminator
  | arg (text : String)
  deriving DecidableEq

def tokens (cl : CommandLine) : Bool → List String → List Token
  | _, [] => []
  | parseSwitches, a :: rest =>
    let arg := cl.trim a
    if parseSwitches ∧ arg = "--" then .terminator :: cl.tokens false rest
    else
      match if parseSwitches then cl.isSwitch arg else none with
      | some (key, value) => .switch key value :: cl.tokens parseSwitches rest
      | none => .arg arg :: cl.tokens parseSwitches rest

def Token.arg? : Token → Option String
  | .arg text => some text
  | _ => none

def Token.value? (key : String) : Token → Option String
  | .switch key' value => if key' = key then some value else none
  | _ => none

def args (cl : CommandLine) : List Token := cl.tokens true cl.originalArgv.tail

def getProgram (cl : CommandLine) : String := cl.originalArgv.headD ""

def getArgs (cl : CommandLine) : List String := cl.args.filterMap Token.arg?

/-- The value of a switch, the last one if it is repeated. -/
def getSwitchValue (cl : CommandLine) (key : String) : Option String :=
  (cl.args.filterMap (Token.value? key)).getLast?

end CommandLine

/-! ## The system -/

inductive Os where
  | win | mac | linux
  deriving DecidableEq

inductive Node where
  | directory
  | file (text : String)
  deriving DecidableEq

/-- What is in a folder, by relative paths. -/
abbrev Folder := String → Option Node

/-- `base::Value`, as far as manifests are read. -/
inductive Value where
  | string (text : String)
  | boolean (b : Bool)
  | dictionary (entries : List (String × Value))
  | other (text : String)

abbrev Dictionary := List (String × Value)

namespace Dictionary

def hasKey (d : Dictionary) (key : String) : Bool := d.any fun entry => entry.1 = key

def set (d : Dictionary) (key : String) (value : Value) : Dictionary :=
  d.filter (fun entry => entry.1 ≠ key) ++ [(key, value)]

def getString (d : Dictionary) (key : String) : Option String :=
  match d.find? fun entry => entry.1 = key with
  | some (_, .string text) => some text
  | _ => none

end Dictionary

/-- What `zip::Unzip` does with a file: the entries that it writes, and if it succeeds. -/
structure Zip where
  entries : List (String × Node)
  ok : Bool

/-- `newTempDirectory` is the directory that `CreateNewTempDirectory` makes, none of the paths that
are tried; `folder` gives what is in the other folders. -/
structure System where
  os : Os
  fileExe : Option String
  currentDirectory : Option String
  isAbsolute : String → Bool
  append : String → String → String
  dirName : String → String
  makeAbsoluteFilePath : String → String
  readSymbolicLink : String → Option String
  directoryExists : String → Bool
  folder : String → Folder
  unzip : String → Zip
  newTempDirectory : Option String
  deserialize : Node → Except String Value
  serialize : Dictionary → String

/-- `MakePathAbsolute`. -/
def System.makePathAbsolute (sys : System) (path : String) : Option String :=
  match sys.currentDirectory with
  | none => none
  | some currentDirectory =>
    if sys.isAbsolute path then some path
    else if currentDirectory = "" then some (sys.makeAbsoluteFilePath path)
    else if ¬ sys.isAbsolute currentDirectory then none
    else some (sys.append currentDirectory path)

/-- The target of a symbolic link. -/
def System.resolve (sys : System) (path : String) : String :=
  if sys.os = .win then path else (sys.readSymbolicLink path).getD path

/-- `GetSelfPath`. -/
def System.getSelfPath (sys : System) (cl : CommandLine) : String :=
  let path := sys.fileExe.getD cl.getProgram
  if sys.os = .mac then
    sys.append (sys.append (sys.dirName (sys.dirName path)) "Resources") "app.nw"
  else path

/-- The folder where the executable resides. -/
def System.exeFolder (sys : System) (cl : CommandLine) : String :=
  let path := sys.dirName (sys.getSelfPath cl)
  if sys.os = .mac then sys.dirName (sys.dirName (sys.dirName path)) else path

/-- `RelativePathToURI`. -/
def relativePathToURI (sys : System) (root : String) (manifest : Dictionary) : Dictionary :=
  match manifest.getString "main" with
  | none => manifest
  | some old =>
    if "://".toList <:+: old.toList then manifest
    else manifest.set "main" (.string ("file://" ++ sys.append root old))

/-! ## Packages -/

structure Package where
  path : String := ""
  selfExtract : Bool := true
  root : Option Dictionary := none
  packageString : String := ""
  cachedErrorContent : String := ""
  scopedTempDir : Option String := none
  /-- What is in the temporary directory. -/
  extracted : Folder := fun _ => none

/-- Entries are written to a folder, over what is there. -/
def Folder.write (folder : Folder) (entries : List (String × Node)) : Folder :=
  entries.foldl (fun folder entry => Function.update folder entry.1 (some entry.2)) folder

def Folder.findManifest (folder : Folder) : Option (String × Node) :=
  match folder "package.json" with
  | some node => some ("package.json", node)
  | none => (folder "manifest.json").map fun node => ("manifest.json", node)

namespace Package

def reportError (p : Package) (_title content : String) : Package :=
  { p with cachedErrorContent := content }

/-- `ExtractPackage`; the directory when it succeeds. -/
def extractPackage (sys : System) (p : Package) (zipFile : String) : Option String × Package :=
  match p.scopedTempDir.or sys.newTempDirectory with
  | none => (none, p.reportError "Cannot extract package" "Unable to create temporary directory.")
  | some dir =>
    let zip := sys.unzip zipFile
    (if zip.ok then some dir else none,
      { p with scopedTempDir := some dir, extracted := p.extracted.write zip.entries })

/-- `ExtractPath`; when it succeeds, the directory to which something was extracted, if any. -/
def extractPath (sys : System) (p : Package) (pathToExtract : String) :
    Option (Option String) × Package :=
  match sys.makePathAbsolute pathToExtract with
  | none => (none, p.reportError "Cannot extract package" ("Path is invalid: " ++ pathToExtract))
  | some path =>
    let path := sys.resolve path
    if sys.directoryExists path then (some none, p)
    else
      match p.extractPackage sys path with
      | (some extractedPath, p) => (some (some extractedPath), p)
      | (none, p) =>
        if p.selfExtract then (some none, p)
        else
          (none, p.reportError "Cannot extract package"
            ("Failed to unzip the package file: " ++ path))

def requiredFields : List String := ["name"]

/-- The part of `InitFromPath` after the manifest is found in a folder. -/
def readManifest (sys : System) (p : Package) (path name : String) (node : Node) : Bool × Package :=
  let p := { p with path := path }
  match sys.deserialize node with
  | .error error =>
    (false, p.reportError "Unable to parse package.json"
      (if error = "" then
        "Failed to read the manifest file: " ++ sys.makeAbsoluteFilePath (sys.append path name)
      else error))
  | .ok (.dictionary root) =>
    let p := { p with root := some root, packageString := sys.serialize root }
    match requiredFields.find? fun field => ¬ Dictionary.hasKey root field with
    | some field =>
      (false, p.reportError "Invalid package.json" ("Field '" ++ field ++ "' is required."))
    | none =>
      let root :=
        if Dictionary.hasKey root "window" then root
        else Dictionary.set root "window" (.dictionary [("position", .string "center")])
      (true, { p with root := some (relativePathToURI sys path root) })
  | .ok _ =>
    (false, p.reportError "Invalid package.json" "package.json's content should be a object type.")

/-- `InitFromPath`. -/
def initFromPath (sys : System) (p : Package) (pathIn : String) : Bool × Package :=
  match p.extractPath sys pathIn with
  | (none, p) => (false, p)
  | (some extractedPath, p) =>
    let folder := if extractedPath.isSome then p.extracted else sys.folder pathIn
    match folder.findManifest with
    | some (name, node) => p.readManifest sys (extractedPath.getD pathIn) name node
    | none =>
      (false,
        if p.selfExtract then p
        else p.reportError "Invalid package" ("There is no 'package.json' in the package, please " ++
          "make sure the 'package.json' is in the root of the package."))

/-- `InitWithDefault`. -/
def initWithDefault (cl : CommandLine) (p : Package) : Package :=
  let window : Dictionary :=
    if (cl.getSwitchValue "no-toolbar").isSome then [("toolbar", .boolean false)] else []
  { p with
    root := some [("name", .string "nwjs"), ("main", .string "nw:blank"),
      ("window", .dictionary (window.set "position" (.string "center")))] }

end Package

inductive Source where
  | self | exeFolder | packageNw | nwapp | arg
  deriving DecidableEq

/-- `self_extract_` while a source is tried. -/
def Source.selfExtract : Source → Bool
  | .self | .exeFolder | .packageNw => true
  | .nwapp | .arg => false

structure Candidate where
  source : Source
  path : String
  deriving DecidableEq

/-- The candidates in the order in which they are tried. -/
def candidates (sys : System) (cl : CommandLine) : List Candidate :=
  let exeFolder := sys.exeFolder cl
  [⟨.self, sys.getSelfPath cl⟩, ⟨.exeFolder, exeFolder⟩,
      ⟨.packageNw, sys.append exeFolder "package.nw"⟩] ++
    (cl.getSwitchValue "nwapp").toList.map (⟨.nwapp, ·⟩) ++
    cl.getArgs.head?.toList.map (⟨.arg, ·⟩)

namespace Package

def tryCandidate (sys : System) (p : Package) (c : Candidate) : Bool × Package :=
  initFromPath sys { p with selfExtract := c.source.selfExtract } c.path

def loadFrom (sys : System) (cl : CommandLine) : List Candidate → Package →
    Option Candidate × Package
  | [], p => (none, initWithDefault cl { p with selfExtract := false })
  | c :: rest, p =>
    match p.tryCandidate sys c with
    | (true, p) => (some c, p)
    | (false, p) => loadFrom sys cl rest p

/-- `Package::Package()`, with the candidate that was accepted. -/
def load (sys : System) (cl : CommandLine) : Option Candidate × Package :=
  loadFrom sys cl (candidates sys cl) {}

/-- The error of `LoadNWAppAsExtensionHook`. -/
def loadNWAppAsExtensionHook (p : Package) : Option String :=
  if p.cachedErrorContent ≠ "" then some p.cachedErrorContent else none

end Package

/-- A package in the folder `/app`, and nothing else. -/
def appOnly : System where
  os := .linux
  fileExe := some "/nw/nw"
  currentDirectory := some "/"
  isAbsolute _ := true
  append dir name := dir ++ "/" ++ name
  dirName _ := "/nw"
  makeAbsoluteFilePath path := path
  readSymbolicLink _ := none
  directoryExists path := path = "/nw" ∨ path = "/app"
  folder path name := if path = "/app" ∧ name = "package.json" then some (.file "{..}") else none
  unzip _ := ⟨[], false⟩
  newTempDirectory := some "/tmp/nw"
  deserialize _ := .ok (.dictionary [("name", .string "app")])
  serialize _ := "{..}"

end NodeWebkit
