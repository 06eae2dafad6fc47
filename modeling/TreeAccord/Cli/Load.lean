import TreeAccord.Cli.Arguments
import TreeAccord.Cli.Files
import TreeAccord.Compare.Comparison
import TreeAccord.Config.KotlinPsi
import TreeAccord.Config.Reading
import TreeAccord.Dump.Decode
import TreeAccord.Dump.Report

/-!
# Loading trees and settings

Trees come from dumps. A file whose extension names a source language is not a dump; it is read,
but no tree comes of it.
-/

namespace TreeAccord.Cli

/-- Why a tree or settings cannot be loaded. -/
inductive LoadError where
  | unreadable (path : String) (reason : Reason)
  /-- The file is no dump. -/
  | malformed (path text : String) (fault : Dump.Fault)
  /-- The dump holds more nodes than a table does. -/
  | refused (refusal : NodeTable.Refusal)
  /-- The file is a source, for which there is no parser. -/
  | noTree
  /-- The file holds no settings. -/
  | invalidSettings (message : String)
deriving DecidableEq, Repr

/-- What is written to the error output. -/
def LoadError.render (colored : Bool) : LoadError → String
  | unreadable path reason => "error: cannot read " ++ path ++ ": " ++ reason.message
  | malformed path text fault => Dump.report colored fault text (some path)
  | refused refusal => "error: " ++ refusal.message
  | noTree => "error: parser gave up before producing a tree"
  | invalidSettings message => "error: invalid configuration: " ++ message

variable {m : Type → Type} [Monad m]

def readFile (files : Files m) (path : String) : m (Except LoadError String) := do
  return (← files.read path).mapError (.unreadable path)

/-- The concordance of the settings that a text holds. -/
def concordanceOfText (text : String) : Except LoadError Concordance :=
  match Settings.ofJson text with
  | .ok settings => .ok (.ofSettings settings)
  | .error fault => .error (.invalidSettings (fault.message text.toList))

/-- Loads the settings of a file, or the built-in ones. -/
def loadBase (files : Files m) : Option String → m (Except LoadError Concordance)
  | none => return .ok KotlinPsi.concordance
  | some path => do return (← readFile files path).bind concordanceOfText

/-- Loads settings, and sets the policy if one is given. -/
def loadConcordance (files : Files m) (path? : Option String) (policy? : Option NamePolicy) :
    m (Except LoadError Concordance) := do
  return (← loadBase files path?).map fun k =>
    match policy? with
    | some policy => k.withPolicy policy
    | none => k

/-- Loads a dump with one of the two readers. -/
def loadDump (files : Files m) (decode : String → Except Dump.Failure NodeTable) (path : String) :
    m (Except LoadError NodeTable) := do
  return (← readFile files path).bind fun text => (decode text).mapError fun
    | .fault fault => .malformed path text fault
    | .refused refusal => .refused refusal

/-- Whether a path names a source file; the case of its extension does not matter. -/
def isSource (path : String) : Bool :=
  match extension? path with
  | some extension =>
    let name := extension.toList.map Char.toLower
    name == ['k', 't'] || name == ['k', 't', 's']
  | none => false

/-- Reads a source file, of which no tree comes. -/
def loadSource (files : Files m) (path : String) : m (Except LoadError NodeTable) := do
  return (← readFile files path).bind fun _ => .error .noTree

/-- Loads a candidate, which is a dump unless its extension says otherwise. -/
def loadCandidate (files : Files m) (path : String) : m (Except LoadError NodeTable) :=
  if isSource path then loadSource files path else loadDump files Dump.decodeCandidate path

/-- A candidate and its reference. -/
structure Fixture where
  candidate : NodeTable
  reference : NodeTable

/-- Loads the reference, and then the candidate by `candidate`. -/
def loadFixture (files : Files m) (candidate : m (Except LoadError NodeTable))
    (reference : String) : m (Except LoadError Fixture) := do
  match ← loadDump files Dump.decode reference with
  | .error e => return .error e
  | .ok r => return (← candidate).map fun c => ⟨c, r⟩

def Fixture.verdict (f : Fixture) (comparison : Comparison) : Verdict :=
  comparison.verdict f.candidate.tree f.reference.tree

end TreeAccord.Cli
