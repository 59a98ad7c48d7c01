import Scaffold.Artifact.Header
import Scaffold.Artifact.Source

/-!
The two artifacts of an object type as texts and as files.
-/

namespace Scaffold

structure ArtifactPair where
  header : String
  source : String
deriving DecidableEq, Repr

structure NamedText where
  name : String
  content : String
deriving DecidableEq, Repr

namespace Blueprint

def render (blueprint : Blueprint) : ArtifactPair where
  header := blueprint.header.render
  source := blueprint.source.render

def files (blueprint : Blueprint) : List NamedText :=
  [⟨blueprint.symbols.headerFile, blueprint.render.header⟩,
    ⟨blueprint.symbols.sourceFile, blueprint.render.source⟩]

theorem map_content_files (blueprint : Blueprint) :
    blueprint.files.map NamedText.content = [blueprint.render.header, blueprint.render.source] :=
  rfl

def headerPath (blueprint : Blueprint) (directory : Path) : Path :=
  directory.join ⟨blueprint.symbols.headerFile⟩

def sourcePath (blueprint : Blueprint) (directory : Path) : Path :=
  directory.join ⟨blueprint.symbols.sourceFile⟩

end Blueprint

end Scaffold
