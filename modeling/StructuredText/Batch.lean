import StructuredText.SourceFile.Parse

/-!
# Batches

Many sources read in one run. Each is read on its own, so one that fails does not keep the others
from being read, and its error is recorded in its place.

* `Batch.parse` — the entries of a list of sources, in order.
* `Batch.addFailure` — one more entry, for a source that could not be read at all.
* `Batch.sources?` — the trees by name; all of them, or those there are if these are wanted.
-/

namespace StructuredText

/-- A text to read: the name it is known by, and the file name that errors tell. -/
structure Source where
  name : String
  filename : String
  text : Text

/-- What became of a source. -/
structure Batch.Entry where
  name : String
  filename : String
  result : Except Error SourceFile

namespace Batch.Entry

/-- Whether a source was read. -/
def isOk (e : Batch.Entry) : Bool := e.result.isOk

/-- The entry with its error, if the source was not read. -/
def failure? (e : Batch.Entry) : Option (Batch.Entry × Error) :=
  match e.result with
  | .error error => some (e, error)
  | .ok _ => none

/-- The tree with the name of the source, if it was read. -/
def tree? (e : Batch.Entry) : Option (String × SourceFile) :=
  match e.result with
  | .ok f => some (e.name, f)
  | .error _ => none

end Batch.Entry

/-- What became of the sources of a run, in order, and whether all of them were read so far. -/
structure Batch where
  succeeded : Bool := true
  entries : List Batch.Entry := []

namespace Batch

/-- Adds what became of one more source. A source that was not read makes the batch fail. -/
def add (b : Batch) (entry : Entry) : Batch where
  succeeded := b.succeeded && entry.isOk
  entries := b.entries ++ [entry]

/-- Reads each of the sources. -/
def parse (settings : Settings) (sources : List Source) : Batch :=
  sources.foldl
    (fun b s => b.add
      { name := s.name, filename := s.filename
        result := SourceFile.parse settings s.text s.filename })
    {}

/-- The first entry of a name. -/
def get? (b : Batch) (name : String) : Option Entry := b.entries.find? (·.name == name)

/-- Adds a source that failed before it could be read. The batch has failed from then on. -/
def addFailure (b : Batch) (name filename : String) (error : Error) : Batch where
  succeeded := false
  entries := b.entries ++ [{ name, filename, result := .error error }]

/-- Adds sources that failed before they could be read, each with its name and its file name. -/
def addFailures (b : Batch) (failed : List (String × String × Error)) : Batch :=
  failed.foldl (fun b (name, filename, error) => b.addFailure name filename error) b

/-- The entries that failed, with their errors. -/
def failures (b : Batch) : List (Entry × Error) := b.entries.filterMap Entry.failure?

/-- The trees that were made, by name. -/
def trees (b : Batch) : List (String × SourceFile) := b.entries.filterMap Entry.tree?

/-- The trees by name. If a source failed there are none, unless what there is was asked for. -/
def sources? (b : Batch) (keepPartial : Bool) : Option (List (String × SourceFile)) :=
  if b.succeeded || keepPartial then some b.trees else none

end Batch

end StructuredText
