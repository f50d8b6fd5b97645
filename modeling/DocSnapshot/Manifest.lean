import DocSnapshot.Commit
import DocSnapshot.Config
import DocSnapshot.FileSystem.Artifact
import DocSnapshot.Record.Json
import DocSnapshot.StructureMap.Json

/-! The files of a snapshot: one record for each source, the structure map, and the manifest. -/
namespace DocSnapshot

/-- What a snapshot was made of: the commit, and the records in the order of their sources. -/
structure Manifest where
  commitHash : String
  shortCommitHash : String
  commitDate : String
  commitMessage : String
  commitAuthor : String
  documentedFiles : List String
  deriving DecidableEq, Repr

namespace Manifest

def ofCommit (c : Commit) (sources : List String) : Manifest :=
  { commitHash := c.hash
    shortCommitHash := c.shortHash
    commitDate := c.date
    commitMessage := c.message
    commitAuthor := c.author
    documentedFiles := sources.map Path.recordPath }

def toJson (m : Manifest) : Json :=
  .obj [("commit_hash", .str m.commitHash), ("short_commit_hash", .str m.shortCommitHash),
    ("commit_date", .str m.commitDate), ("commit_message", .str m.commitMessage),
    ("commit_author", .str m.commitAuthor), ("documented_files", .strings m.documentedFiles)]

open Json.Reader

def manifestFields : List (FieldReader Manifest) :=
  let text (name : String) (store : String → Manifest → Manifest) : FieldReader Manifest :=
    { name := name, optional := false, defaulted := false
      read := fun _ => do
        let s ← string "a string"
        return store s }
  [text "commit_hash" fun s m => { m with commitHash := s },
    text "short_commit_hash" fun s m => { m with shortCommitHash := s },
    text "commit_date" fun s m => { m with commitDate := s },
    text "commit_message" fun s m => { m with commitMessage := s },
    text "commit_author" fun s m => { m with commitAuthor := s },
    { name := "documented_files", optional := false, defaulted := false
      read := fun depth => do
        let files ← list depth "a sequence" fun _ => string "a string"
        return fun m => { m with documentedFiles := files } }]

def read : Json.Reader Manifest :=
  record fullDepth "struct SnapshotManifest" manifestFields ⟨"", "", "", "", "", []⟩

def ofText (text : String) : Except Json.Fault Manifest := whole read text

end Manifest

structure StructureDocument where
  projectName : String
  generatedAt : Timestamp
  commitHash : String
  structureMap : StructureMap
  deriving Repr

def StructureDocument.toJson (d : StructureDocument) : Json :=
  .obj [("project_name", .str d.projectName), ("generated_at", .str d.generatedAt.render),
    ("commit_hash", .str d.commitHash), ("structure", d.structureMap.toJson)]

/-- Where the files of a snapshot are. -/
structure Layout where
  outputDir : String
  deriving DecidableEq, Repr

namespace Layout

def ofConfig (c : Config) (root : String) : Layout := ⟨c.outputPath root⟩

def recordFile (l : Layout) (source : String) : String :=
  Path.join l.outputDir (Path.recordPath source)

def manifestFile (l : Layout) : String := Path.join l.outputDir "index.json"

def structureFile (l : Layout) : String := Path.join l.outputDir "docshadow.json"

def artifacts (l : Layout) (records : List Record) (d : StructureDocument) (m : Manifest) :
    List Artifact :=
  records.map (fun r => ⟨l.recordFile r.path, r.toJson.pretty⟩) ++
    [⟨l.structureFile, d.toJson.pretty⟩, ⟨l.manifestFile, m.toJson.pretty⟩]

def loadManifest (l : Layout) (fs : FileSystem) : Except Error (Option Manifest) :=
  if fs.exists? l.manifestFile then
    match fs.readText l.manifestFile with
    | .error e => .error (.io e)
    | .ok text =>
      match Manifest.ofText text with
      | .error e => .error (.serialization e.message)
      | .ok m => .ok (some m)
  else .ok none

end Layout

end DocSnapshot
