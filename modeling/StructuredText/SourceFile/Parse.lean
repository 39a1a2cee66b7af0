import StructuredText.Build.Tree
import StructuredText.Comment.Ownership
import StructuredText.Comment.Scan
import StructuredText.Error

/-!
# Reading source files

From text to tree: the grammar gives a derivation, the builders make a tree of it, and the comments
are handed out to its nodes unless the settings say otherwise.

* `SourceFile.parse` — the tree of a text, or the error.
-/

namespace StructuredText.SourceFile

/-- The tree of a text without its comments. The file name is for errors. -/
def parseBare (source : Text) (filename : String) : Except Error SourceFile :=
  match Grammar.derive .iecSource source with
  | .matched (root :: _) _ => (Build.sourceFile (.ofText source) root).mapError (.construction filename)
  | .matched [] _ => pure {}
  | _ => throw (.refused filename (Grammar.refusal .iecSource source))

/-- The tree of a text. The file name is for errors. -/
def parse (settings : Settings) (source : Text) (filename : String) : Except Error SourceFile := do
  let f ← parseBare source filename
  if settings.attachComments then pure (f.adopt source.comments).1 else pure f

end StructuredText.SourceFile
