import SymbolAtlas.QualifiedName
import SymbolAtlas.Store.Action

/-!
Statements that write single rows.  A row that cannot be touched is reported before anything else
is checked.
-/

namespace SymbolAtlas

def addRun (about : RunMeta) : StoreAction Int := statement fun access store => do
  access.permit store [(.runs, .insert)]
  let runs := store.runs.insert
    { repo := about.repo, commit := about.commit
      createdAt := about.createdAt.getD access.clock }
  return (runs.last, { store with runs := runs })

/-- Records what a dump says about itself; what it leaves out stays as it is. -/
def describeRun (run : Int) (projectRoot lsifVersion : Option String) : StoreAction Unit :=
  statement fun access store => do
    if store.runs.has run then access.permit store [(.runs, .update)]
    let change := fun r : Run =>
      { r with
        projectRoot := projectRoot <|> r.projectRoot
        lsifVersion := lsifVersion <|> r.lsifVersion }
    return ((), { store with runs := store.runs.modify run change })

def addDocument (run : Int) (uri : String) (languageId : Option String) : StoreAction Int :=
  statement fun access store => do
    access.permit store [(.documents, .insert)]
    require (store.runs.has run) .foreignKey
    let documents := store.documents.insert ⟨run, uri, languageId⟩
    return (documents.last, { store with documents := documents })

def addHover (run : Int) (contents : String) : StoreAction Int :=
  statement fun access store => do
    access.permit store [(.hovers, .insert)]
    require (store.runs.has run) .foreignKey
    let hovers := store.hovers.insert ⟨run, contents⟩
    return (hovers.last, { store with hovers := hovers })

def addPackage (run : Int) (name : String) (version manager : Option String) :
    StoreAction Int :=
  statement fun access store => do
    access.permit store [(.packages, .insert)]
    require (store.runs.has run) .foreignKey
    let packages := store.packages.insert ⟨run, name, version, manager⟩
    return (packages.last, { store with packages := packages })

def addMoniker (run : Int) (scheme identifier : String) (kind : Option String)
    (package : Option Int) : StoreAction Int :=
  statement fun access store => do
    access.permit store [(.monikers, .insert)]
    require (store.runs.has run && store.packages.hasOption package) .foreignKey
    let monikers := store.monikers.insert ⟨run, scheme, identifier, kind, package⟩
    return (monikers.last, { store with monikers := monikers })

def setPackage (moniker package : Int) : StoreAction Unit :=
  statement fun access store => do
    if store.monikers.has moniker then
      access.permit store [(.monikers, .update)]
      require (store.packages.has package) .foreignKey
    let change := fun m : Moniker => { m with package := some package }
    return ((), { store with monikers := store.monikers.modify moniker change })

/-- The symbol with the given scheme and identifier, which is made if it is not there.  A number
is given out in any case, and a symbol keeps the kind that it was made with. -/
def internSymbol (scheme identifier : String) (kind : Option String) : StoreAction Int :=
  statement fun access store => do
    access.permit store [(.symbols, .insert)]
    match store.symbolNamed? scheme identifier with
    | some (id, _) => return (id, { store with symbols := store.symbols.skip })
    | none =>
      let name := qualifiedName identifier
      let symbols := store.symbols.insert ⟨scheme, identifier, name, kind⟩
      let entry : IndexEntry := ⟨symbols.last, name, identifier⟩
      return (symbols.last,
        { store with symbols := symbols, searchIndex := store.searchIndex ++ [entry] })

def linkSymbol (moniker symbol : Int) : StoreAction Unit :=
  statement fun access store => do
    access.permit store [(.links, .insert)]
    require (store.symbolOf? moniker).isNone .repeatedMonikerLink
    require (store.monikers.has moniker && store.symbols.has symbol) .foreignKey
    return ((), { store with links := store.links ++ [⟨moniker, symbol⟩] })

def addResultSet (run : Int) : StoreAction Int := statement fun access store => do
  access.permit store [(.resultSets, .insert)]
  require (store.runs.has run) .foreignKey
  let resultSets := store.resultSets.insert { run := run }
  return (resultSets.last, { store with resultSets := resultSets })

/-- Points a result set at a bucket.  Buckets are not rows, so any number will do. -/
def setBucket (resultSet : Int) (kind : BucketKind) (bucket : Int) : StoreAction Unit :=
  statement fun access store => do
    if store.resultSets.has resultSet then access.permit store [(.resultSets, .update)]
    return ((), { store with
      resultSets := store.resultSets.modify resultSet fun r => r.setBucket bucket kind })

def setHover (resultSet hover : Int) : StoreAction Unit := statement fun access store => do
  if store.resultSets.has resultSet then
    access.permit store [(.resultSets, .update)]
    require (store.hovers.has hover) .foreignKey
  let change := fun r : ResultSet => { r with hover := some hover }
  return ((), { store with resultSets := store.resultSets.modify resultSet change })

def setMoniker (resultSet moniker : Int) : StoreAction Unit := statement fun access store => do
  if store.resultSets.has resultSet then
    access.permit store [(.resultSets, .update)]
    require (store.monikers.has moniker) .foreignKey
  let change := fun r : ResultSet => { r with moniker := some moniker }
  return ((), { store with resultSets := store.resultSets.modify resultSet change })

def addRange (document : Int) (span : Span) (resultSet : Option Int) : StoreAction Int :=
  statement fun access store => do
    access.permit store [(.ranges, .insert)]
    require (store.documents.has document && store.resultSets.hasOption resultSet) .foreignKey
    let ranges := store.ranges.insert ⟨document, span, resultSet⟩
    return (ranges.last, { store with ranges := ranges })

def setResultSet (range resultSet : Int) : StoreAction Unit :=
  statement fun access store => do
    if store.ranges.has range then
      access.permit store [(.ranges, .update)]
      require (store.resultSets.has resultSet) .foreignKey
    let change := fun r : Range => { r with resultSet := some resultSet }
    return ((), { store with ranges := store.ranges.modify range change })

def Store.itemNamesRows (s : Store) (item : Item) : Bool :=
  s.runs.has item.run && s.documents.has item.document && s.ranges.has item.range

def addDefinition (item : Item) : StoreAction Unit := statement fun access store => do
  access.permit store [(.definitionItems, .insert)]
  require (store.itemNamesRows item) .foreignKey
  return ((), { store with definitionItems := store.definitionItems.insert item })

def addReference (item : Item) (isDefinition : Bool) : StoreAction Unit :=
  statement fun access store => do
    access.permit store [(.referenceItems, .insert)]
    require (store.itemNamesRows item) .foreignKey
    return ((), { store with
      referenceItems := store.referenceItems.insert { item with isDefinition := isDefinition } })

end SymbolAtlas
