import SymbolAtlas.File
import SymbolAtlas.Ingest.Apply
import SymbolAtlas.Ingest.Lines
import SymbolAtlas.Record.Decode
import SymbolAtlas.Settings.Basic

/-!
Ingesting a dump.  The whole dump goes into the store in one transaction, line by line; the
occurrences are derived in a second one, whose failure does not undo the first.
-/

namespace SymbolAtlas

namespace Ingestion

def line (number : Nat) (g : Ingestion) (bytes : List UInt8) : Action IngestError Ingestion :=
  let g := { g with report := { g.report with lines := g.report.lines + 1 } }
  match trimLine bytes with
  | [] => return g
  | text =>
    match Element.ofLine? text with
    | none =>
      return { g with report := { g.report with malformedLines := g.report.malformedLines + 1 } }
    | some element => (g.element element).mapError (.storage number element.describe)

def lines (number : Nat) (g : Ingestion) : List (List UInt8) → Action IngestError Ingestion
  | [] => return g
  | bytes :: rest => do
    let g ← g.line number bytes
    g.lines (number + 1) rest

/-- Takes a whole stream.  The lines before a failure of the stream are taken first. -/
def stream (g : Ingestion) (s : ByteStream) : Action IngestError Ingestion := do
  let g ← g.lines 1 s.lines
  match s.failure with
  | none => return g
  | some message => Action.fail (.stream (s.lines.length + 1) message)

end Ingestion

/-- Adds the missing occurrences of a run, or derives all of them anew, in one transaction. -/
def derivation (anew : Bool) (run : Int) : StoreAction DerivationCounts :=
  Action.transaction true id (if anew then refillOccurrences run else fillOccurrences run)

def derive (run : Int) : Action IngestError DerivationCounts :=
  (derivation false run).mapError (.derivation run)

def rebuild (run : Int) : Action IngestError DerivationCounts :=
  (derivation true run).mapError (.derivation run)

def ingestGraph (about : RunMeta) (s : ByteStream) : Action IngestError Report :=
  Action.transaction true .transaction do
    let run ← (addRun about).mapError (.storage 0 "index run")
    let g ← (Ingestion.start run).stream s
    return g.closingReport

def ingest (settings : IngestSettings) (about : RunMeta) (s : ByteStream) :
    Action IngestError Report := do
  let report ← ingestGraph about s
  if settings.derives then
    match ← (derivation false report.run).attempt with
    | .ok counts => return { report with derivation := some counts }
    | .error e => return { report with derivationError := some e }
  else return report

/-- Ingests what is at a path.  A directory can be opened, and fails when it is read. -/
def ingestFile (settings : IngestSettings) (about : RunMeta) (path : String) :
    FileState → Action IngestError Report
  | .absent => Action.fail (.stream 0 (path ++ ": No such file or directory (os error 2)"))
  | .directory => ingest settings about ⟨[], some "Is a directory (os error 21)"⟩
  | .file content => ingest settings about ⟨content, none⟩

end SymbolAtlas
