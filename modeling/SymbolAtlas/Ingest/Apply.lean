import SymbolAtlas.Ingest.Known
import SymbolAtlas.Ingest.Report
import SymbolAtlas.Record.Basic
import SymbolAtlas.Record.Hover
import SymbolAtlas.Store.Write

/-!
Applying the records of a dump, one after the other.  A record can only refer to what came
before it: an edge that names anything else is counted as dangling and does not come up again.
-/

namespace SymbolAtlas

structure Ingestion where
  run : Int
  known : Known := {}
  report : Report

namespace Ingestion

def start (run : Int) : Ingestion := { run := run, report := { run := run } }

def dangling (g : Ingestion) : Ingestion :=
  { g with report := { g.report with danglingReferences := g.report.danglingReferences + 1 } }

def ignored (g : Ingestion) : Ingestion :=
  { g with report := { g.report with ignoredRecords := g.report.ignoredRecords + 1 } }

def learn (g : Ingestion) (change : Known → Known) : Ingestion :=
  { g with known := change g.known }

/-- A declaration.  Ranges wait for the document that claims them, and buckets are no rows. -/
def vertex (g : Ingestion) : Vertex → StoreAction Ingestion
  | .metaData version projectRoot => do
    describeRun g.run projectRoot version
    return g
  | .document id uri languageId => do
    let row ← addDocument g.run uri languageId
    return g.learn fun k => { k with documents := k.documents.insert id row }
  | .range id span =>
    return g.learn fun k => { k with unclaimed := k.unclaimed.insert id ⟨span, none⟩ }
  | .resultSet id => do
    let row ← addResultSet g.run
    return g.learn fun k => { k with resultSets := k.resultSets.insert id row }
  | .hoverResult id result => do
    let row ← addHover g.run result.hoverText
    return g.learn fun k => { k with hovers := k.hovers.insert id row }
  | .packageInformation id name version manager => do
    let row ← addPackage g.run name version manager
    return g.learn fun k => { k with packages := k.packages.insert id row }
  | .moniker id scheme identifier kind package => do
    let row ← addMoniker g.run scheme identifier kind (package.bind g.known.packages.get?)
    let symbol ← internSymbol scheme identifier kind
    linkSymbol row symbol
    return g.learn fun k => { k with monikers := k.monikers.insert id row }
  | .bucket kind id => return g.learn fun k => k.learnKind id kind
  | .other => return g.ignored

def claim (document : Int) (g : Ingestion) (id : Int) : StoreAction Ingestion :=
  match g.known.unclaimed.get? id with
  | none => return g.dangling
  | some range => do
    let row ← addRange document range.span range.resultSet
    return g.learn fun k =>
      { k with
        unclaimed := k.unclaimed.erase id
        claimed := k.claimed.insert id ⟨row, document, range.resultSet⟩ }

/-- A range gets its result set.  An unclaimed range keeps it until it is claimed; links between
result sets are not followed. -/
def next (g : Ingestion) (outV inV : Int) : StoreAction Ingestion :=
  match g.known.resultSets.get? inV with
  | none => return g.dangling
  | some resultSet =>
    match g.known.unclaimed.get? outV, g.known.claimed.get? outV with
    | some range, _ =>
      return g.learn fun k =>
        { k with unclaimed := k.unclaimed.insert outV { range with resultSet := some resultSet } }
    | none, some range => do
      setResultSet range.row resultSet
      return g.learn fun k =>
        { k with claimed := k.claimed.insert outV { range with resultSet := some resultSet } }
    | none, none => return if g.known.resultSets.has outV then g.ignored else g.dangling

/-- A result set gets a bucket.  The kind of the bucket is learned in any case. -/
def bucket (g : Ingestion) (kind : BucketKind) (outV inV : Int) : StoreAction Ingestion :=
  let g := g.learn fun k => k.learnKind inV kind
  match g.known.resultSetOf? outV with
  | none => return g.dangling
  | some resultSet => do
    setBucket resultSet kind inV
    return g

/-- Whether the targets of an item edge are definitions.  The kind of the bucket decides if it
is one of definitions or references, else the edge itself. -/
def toDefinitions (g : Ingestion) (bucket : Int) (property : Option String) : Bool :=
  match g.known.kindOf? bucket with
  | some .definitions => true
  | some .references => false
  | _ => Edge.isDefinitions property

def item (bucket : Int) (property : Option String) (g : Ingestion) (id : Int) :
    StoreAction Ingestion :=
  match g.known.claimed.get? id with
  | none => return g.dangling
  | some range => do
    let row : Item := ⟨g.run, bucket, range.document, range.row⟩
    if g.toDefinitions bucket property then addDefinition row
    else addReference row (Edge.isDefinitions property)
    return g

def edge (g : Ingestion) : Edge → StoreAction Ingestion
  | .contains outV inVs =>
    match g.known.documents.get? outV with
    | none => return g.dangling
    | some document => inVs.foldlM (claim document) g
  | .next outV inV => g.next outV inV
  | .moniker outV inV =>
    match g.known.resultSetOf? outV, g.known.monikers.get? inV with
    | some resultSet, some moniker => do
      setMoniker resultSet moniker
      return g
    | _, _ => return g.dangling
  | .packageInformation outV inV =>
    match g.known.monikers.get? outV, g.known.packages.get? inV with
    | some moniker, some package => do
      setPackage moniker package
      return g
    | _, _ => return g.dangling
  | .bucket kind outV inV => g.bucket kind outV inV
  | .hover outV inV =>
    match g.known.resultSetOf? outV, g.known.hovers.get? inV with
    | some resultSet, some hover => do
      setHover resultSet hover
      return g
    | _, _ => return g.dangling
  | .item outV inVs inV property => (Edge.itemTargets inVs inV).foldlM (item outV property) g
  | .other => return g.ignored

def element (g : Ingestion) : Element → StoreAction Ingestion
  | .vertex v =>
    { g with report := { g.report with vertices := g.report.vertices + 1 } }.vertex v
  | .edge e => { g with report := { g.report with edges := g.report.edges + 1 } }.edge e

def closingReport (g : Ingestion) : Report :=
  { g.report with droppedRanges := g.known.unclaimed.size }

end Ingestion

end SymbolAtlas
