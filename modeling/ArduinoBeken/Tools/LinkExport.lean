import ArduinoBeken.Tools.PythonPath
import ArduinoBeken.Library.FileTree
import Mathlib

/-!
# Exporting the Link Line

`export_link_assets` of the SDK export: it walks the link line of the build,
copies every archive and linker script that the line names into the exported
SDK, and rewrites the line to name the copies.

The machine is part of the layout: `resolve` is `Path.resolve`, with the
working directory and the symbolic links it knows, and `locate` is where the
operating system finds what a path names. Neither is fixed. The disk is the
tree of files and directories at those places. What is copied goes to one of
six shelves of the exported SDK.

## Main definitions

* `Layout`: The directories of the build and of the export.
* `classifyExportPath`: Where an archive is exported to.
* `resolveBkLibExportSource`: Which file is copied for it.
* `exportLinkAssets`: The rewritten line, with what was copied.
* `Placement`: An archive or a script to be copied.
* `Shelf`: The parts of the exported SDK that hold them.
-/

namespace ArduinoBeken

namespace Tools

open FileTree

/-- The directories that the export is called with, and the machine it runs on. -/
structure Layout (κ : Type) where
  cmakeBuildDir : Path
  sdkDir : Path
  projectRoot : Path
  soc : List Char
  outputRoot : Path
  resolve : Path → Path
  locate : Path → κ

/-- What ends an export. -/
inductive ExportError where
  | shlexError (text : String)
  | notRelative
  | osError
deriving DecidableEq

/-- One entry of the lists that the manifest is made of. -/
structure Asset where
  source : List Char
  path : List Char
deriving DecidableEq

/-- The components of the project that archives are built from. -/
inductive ProjectLib where
  | core
  | main
  | linker
  | library
deriving DecidableEq

/-- The placeholder for the archive of the core. -/
def coreArchiveToken : List Char := "\x7bbuild.core_archive\x7d".toList

/-- The archives of the libraries that the SDK has. -/
def arduinoLibraryNames : List Name :=
  [nameOf "libBLE.a", nameOf "libWiFi.a", nameOf "libWiFiClientSecure.a",
    nameOf "libHTTPClient.a", nameOf "libPubSubClient.a", nameOf "libDNSServer.a",
    nameOf "libWebsocket.a"]

/-- `is_arduino_adaptation_library`: by the kind of the project's library, or by name. -/
def isArduinoAdaptationLibrary (source : Path) (projectLib : Option ProjectLib) : Bool :=
  projectLib = some .library ∨ source.name ∈ arduinoLibraryNames.map some

/-- `Path.is_relative_to`. -/
def isRelativeTo (path parent : Path) : Bool :=
  (path.relativeTo parent).isSome

/-- `classify_project_library`, by a directory in the path. -/
def classifyProjectLibrary (source : Path) : Option ProjectLib :=
  if nameOf "arduino-beken-core" ∈ source.names then some .core
  else if nameOf "arduino-beken-main" ∈ source.names then some .main
  else if nameOf "arduino-beken-linker" ∈ source.names then some .linker
  else if nameOf "libraries" ∈ source.names then some .library
  else none

variable {κ γ : Type} [DecidableEq κ]

namespace Layout

/-- `sdk_dir / "components" / "bk_libs"`. -/
def bkLibs (layout : Layout κ) : Path :=
  (layout.sdkDir.child (nameOf "components")).child (nameOf "bk_libs")

/-- The vendor's libraries of the SoC. -/
def bkLibsSoc (layout : Layout κ) : Path :=
  layout.bkLibs / Path.ofText layout.soc

/-- The patches of these libraries. -/
def patchRoot (layout : Layout κ) : Path :=
  ((layout.projectRoot.child (nameOf "third_party_patches")).child (nameOf "bk_idk")).child
    (nameOf "bk_libs") / Path.ofText layout.soc

/-- The output of the build for an archive of the SoC. -/
def builtLib (layout : Layout κ) (source : Path) : Path :=
  ((layout.cmakeBuildDir.child (nameOf "armino_as_lib") / Path.ofText layout.soc).child
    (nameOf "libs")).childOf source

/-- `Path.is_file`, at the place where the system finds the path. -/
def isFile (layout : Layout κ) (disk : Tree κ γ) (path : Path) : Bool :=
  (contents disk (layout.locate path)).isSome

end Layout

/-- `classify_export_path`: the shelf, by where the file comes from, and the name on it. -/
def classifyExportPath (layout : Layout κ) (source : Path) (projectLib : Option ProjectLib) :
    Path :=
  if isArduinoAdaptationLibrary source projectLib then
    (layout.outputRoot.child (nameOf "arduino_lib")).childOf source
  else if isRelativeTo source (layout.cmakeBuildDir.child (nameOf "armino")) then
    (((layout.outputRoot.child (nameOf "armino_as_lib")).childOf layout.cmakeBuildDir).child
      (nameOf "libs")).childOf source
  else if isRelativeTo source layout.bkLibs then
    (layout.outputRoot.child (nameOf "bk_libs")).childOf source
  else
    match source.relativeTo layout.sdkDir with
    | some rel => (layout.outputRoot.child (nameOf "lib")).child (nameOf "bk_idk") / rel
    | none => ((layout.outputRoot.child (nameOf "lib")).child (nameOf "external")).childOf source

/-- The output of the build goes before the patches, they before the vendor's
own library. -/
def resolveBkLibExportSource (layout : Layout κ) (disk : Tree κ γ) (source : Path) : Path :=
  match source.relativeTo layout.bkLibsSoc with
  | none => source
  | some rel =>
    if layout.isFile disk (layout.builtLib source) then layout.builtLib source
    else if isDir disk (layout.locate layout.patchRoot) = false then source
    else
      let mirrored := layout.patchRoot / rel
      if layout.isFile disk mirrored then mirrored
      else
        let flat := layout.patchRoot.childOf source
        if layout.isFile disk flat then flat else source

/-- `dst.parent.mkdir(parents=True, exist_ok=True)` and `shutil.copy2`, which
copies into a directory under the name of the source. -/
def copyFile (layout : Layout κ) (disk : Tree κ γ) (src dst : Path) :
    Except ExportError (Tree κ γ) :=
  let copied := (changeAll? disk (dst.parents.map fun p => .mkdir (layout.locate p))).bind
    fun disk =>
      let dst := if isDir disk (layout.locate dst) then dst.childOf src else dst
      change? disk (.copy (layout.locate src) (layout.locate dst))
  match copied with
  | some disk => .ok disk
  | none => .error .osError

/-- What the export has done so far. -/
structure Exported (κ γ : Type) where
  disk : Tree κ γ
  ldLibs : List (List Char)
  exportedLibs : List Asset
  exportedLd : List Asset

/-- `dst.relative_to(output_root)`, as a text. -/
def exportedPath (layout : Layout κ) (dst : Path) : Except ExportError (List Char) :=
  match dst.relativeTo layout.outputRoot with
  | some rel => .ok rel.str
  | none => .error .notRelative

/-- The token for a file of the exported SDK. -/
def sdkToken (path : List Char) : List Char :=
  "\x7bcompiler.sdk.path\x7d/".toList ++ path

/-- How the map option begins. -/
def mapStart : List Char := "-Wl,--print-memory-usage,--Map=".toList

/-- The map option of a sketch. -/
def mapToken : List Char :=
  mapStart ++ "\x7bbuild.path\x7d/\x7bbuild.project_name\x7d.map".toList

/-- The archive that a token names. -/
def archiveSource (layout : Layout κ) (token : List Char) : Path :=
  let source := Path.ofText token
  if source.isAbsolute then source else layout.resolve (layout.cmakeBuildDir / source)

/-- The branches of the loop that take one token. -/
def exportToken (layout : Layout κ) (token : List Char) (out : Exported κ γ) :
    Except ExportError (Exported κ γ) :=
  if endsWith token ".a".toList then
    let source := archiveSource layout token
    let projectLib := classifyProjectLibrary source
    -- the core's archive is built by the platform, so it is not copied
    if projectLib = some .core then .ok { out with ldLibs := out.ldLibs ++ [coreArchiveToken] }
    else do
      let dst := classifyExportPath layout source projectLib
      let copySrc := resolveBkLibExportSource layout out.disk source
      let disk ← copyFile layout out.disk copySrc dst
      let path ← exportedPath layout dst
      .ok { out with
        disk := disk
        ldLibs := out.ldLibs ++ [sdkToken path]
        exportedLibs := out.exportedLibs ++ [⟨copySrc.str, path⟩] }
  else if startsWith token mapStart then .ok { out with ldLibs := out.ldLibs ++ [mapToken] }
  else .ok { out with ldLibs := out.ldLibs ++ [token] }

/-- The scripts that the build line names. A later one takes the place of an
earlier one of its name. -/
def scriptLookup (layout : Layout κ) (buildTokens : List (List Char)) : List (List Char × Path) :=
  ((buildTokens.filter (endsWith · ".ld".toList)).map fun token =>
    let path := Path.ofText token
    ((path.name.map Subtype.val).getD [],
      if path.isAbsolute then path else layout.resolve (layout.cmakeBuildDir / path))).reverse

/-- The script that is named behind `-T`. -/
def scriptSource (layout : Layout κ) (lookup : List (List Char × Path))
    (lastSearchDir : Option Path) (name : List Char) : Path :=
  let script := Path.ofText name
  if script.isAbsolute then script
  else
    match lastSearchDir with
    | some dir => layout.resolve (dir / script)
    | none =>
      ((lookup.find? fun entry => entry.1 = name).map Prod.snd).getD
        (layout.cmakeBuildDir / script)

/-- Where a script is exported to. -/
def scriptDst (layout : Layout κ) (src : Path) : Path :=
  (layout.outputRoot.child (nameOf "ld")).childOf src

/-- The branch of the loop for `-T`. -/
def exportScript (layout : Layout κ) (src : Path) (out : Exported κ γ) :
    Except ExportError (Exported κ γ) := do
  let dst := scriptDst layout src
  let disk ← copyFile layout out.disk src dst
  let path ← exportedPath layout dst
  .ok { out with
    disk := disk
    ldLibs := out.ldLibs ++ ["-T".toList, sdkToken path]
    exportedLd := out.exportedLd ++ [⟨src.str, path⟩] }

/-- The directory that scripts are looked for in, behind `-L dir`. -/
def searchDir (layout : Layout κ) (lastSearchDir : Option Path) (dir : List Char) : Option Path :=
  let path := layout.resolve (Path.ofText dir)
  if isRelativeTo path layout.cmakeBuildDir then some path else lastSearchDir

/-- The loop, from the tokens that are left. -/
def exportFrom (layout : Layout κ) (lookup : List (List Char × Path)) :
    Option Path → List (List Char) → Exported κ γ → Except ExportError (Exported κ γ)
  | _, [], out => .ok out
  -- A last `-L` or `-T` is a token like any other.
  | _, [token], out => exportToken layout token out
  | lastSearchDir, token :: next :: rest, out =>
    if token = "-L".toList then
      exportFrom layout lookup (searchDir layout lastSearchDir next) rest out
    else if token = "-T".toList then
      (exportScript layout (scriptSource layout lookup lastSearchDir next) out).bind
        (exportFrom layout lookup lastSearchDir rest)
    else
      (exportToken layout token out).bind (exportFrom layout lookup lastSearchDir (next :: rest))

local instance lawfulBEqToken : LawfulBEq (List Char) := inferInstance

/-- The link line with the archives that only the build line has, in front of
the first `-T` or at the end. -/
def withBuildArchives (linkTokens buildTokens : List (List Char)) : List (List Char) :=
  let extraLibTokens := buildTokens.filter fun token =>
    endsWith token ".a".toList && token ∉ linkTokens
  let insertAt := linkTokens.idxOf "-T".toList
  linkTokens.take insertAt ++ extraLibTokens ++ linkTokens.drop insertAt

/-- `shlex.split`, with its error. -/
def shlexTokens (line : List Char) : Except ExportError (List (List Char)) :=
  (shlexSplit line).mapError .shlexError

/-- The flags, and what the export comes to. -/
def exportLinkAssets (layout : Layout κ) (buildLine flagsLine linkLibsLine : List Char)
    (disk : Tree κ γ) : Except ExportError (List (List Char) × Exported κ γ) := do
  let ldFlags ← shlexTokens flagsLine
  let linkTokens ← shlexTokens linkLibsLine
  let buildTokens ← shlexTokens buildLine
  let out ← exportFrom layout (scriptLookup layout buildTokens) none
    (withBuildArchives linkTokens buildTokens)
    { disk := disk, ldLibs := [], exportedLibs := [], exportedLd := [] }
  .ok (ldFlags, out)

/-! ### Shelves -/

/-- A file that the link line names and that the export copies. -/
inductive Placement where
  | archive (file : Path)
  | script (file : Path)
deriving DecidableEq

/-- The parts of the exported SDK. -/
inductive Shelf where
  | arduino
  | armino
  | bkLibs
  | sdk
  | external
  | scripts
deriving DecidableEq

/-- The names of a shelf below the root of the export. -/
def Shelf.names (layout : Layout κ) : Shelf → List Name
  | .arduino => [nameOf "arduino_lib"]
  | .armino => nameOf "armino_as_lib" :: (layout.cmakeBuildDir.name.toList ++ [nameOf "libs"])
  | .bkLibs => [nameOf "bk_libs"]
  | .sdk => [nameOf "lib", nameOf "bk_idk"]
  | .external => [nameOf "lib", nameOf "external"]
  | .scripts => [nameOf "ld"]

/-- The shelf that names below the root of the export lie on. -/
def Shelf.ofNames : List Name → Option Shelf
  | [] => none
  | first :: rest =>
    if first = nameOf "arduino_lib" then some .arduino
    else if first = nameOf "armino_as_lib" then some .armino
    else if first = nameOf "bk_libs" then some .bkLibs
    else if first = nameOf "ld" then some .scripts
    else if rest.head? = some (nameOf "bk_idk") then some .sdk
    else some .external

/-- The shelf that a file is exported to. -/
def Placement.shelf (layout : Layout κ) : Placement → Shelf
  | .script _ => .scripts
  | .archive file =>
    if isArduinoAdaptationLibrary file (classifyProjectLibrary file) then .arduino
    else if isRelativeTo file (layout.cmakeBuildDir.child (nameOf "armino")) then .armino
    else if isRelativeTo file layout.bkLibs then .bkLibs
    else if isRelativeTo file layout.sdkDir then .sdk
    else .external

end Tools

end ArduinoBeken
