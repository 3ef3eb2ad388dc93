import Mathlib.Data.List.Basic
import SymbolAtlas.Proofs.Atomicity

/-!
A store whose buckets go by other numbers and whose runs may be written down differently: a
statement does there what it does in the store itself.
-/

namespace SymbolAtlas

/-- The second access treats the image of a store as the first treats the store. -/
structure Access.Alike (image : Store → Store) (a b : Access) : Prop where
  writable : b.writable = a.writable
  lockedOut : b.lockedOut = a.lockedOut
  inTransaction : b.inTransaction = a.inTransaction
  fails : ∀ table event s, b.fails table event (image s) = a.fails table event s
  commitFails : ∀ s, b.commitFails (image s) = a.commitFails s

namespace Access.Alike

variable {image : Store → Store} {a b : Access}

theorem writeRefusal? (h : Alike image a b) : b.writeRefusal? = a.writeRefusal? := by
  unfold Access.writeRefusal?
  rw [h.writable, h.lockedOut]

theorem beginRefusal? (h : Alike image a b) (immediate : Bool) :
    b.beginRefusal? immediate = a.beginRefusal? immediate := by
  unfold Access.beginRefusal?
  rw [h.inTransaction, h.writeRefusal?]

theorem permit (h : Alike image a b) (s : Store) (touches : List Touch) :
    b.permit (image s) touches = a.permit s touches := by
  induction touches with
  | nil => rfl
  | cons touch rest ih => simp only [Access.permit, h.fails, ih]

theorem within (h : Alike image a b) :
    Alike image { a with inTransaction := true } { b with inTransaction := true } :=
  ⟨h.writable, h.lockedOut, rfl, h.fails, h.commitFails⟩

end Access.Alike

namespace Action

variable {ε δ ε' δ' α β α' β' : Type} {image : Store → Store} {a b : Access} {s : Store}
  {error : ε → δ} {value : α → β}

/-- The second action does to the image of a store what the first does to the store: its result,
its error and the store that it leaves are the images of those of the first. -/
def Carried (image : Store → Store) (a b : Access) (error : ε → δ) (value : α → β) (s : Store)
    (x : Action ε α) (y : Action δ β) : Prop :=
  y b (image s) = (((x a s).1.map value).mapError error, image (x a s).2)

theorem Carried.pure {v : α} {w : β} (h : w = value v) :
    Carried image a b error value s (Pure.pure v) (Pure.pure w) := by
  rw [h]
  rfl

theorem Carried.fail {e : ε} {e' : δ} (h : e' = error e) :
    Carried image a b error value s (fail e) (fail e') := by
  rw [h]
  rfl

theorem Carried.bind {value' : α' → β'} {x : Action ε α} {y : Action δ β} {f : α → Action ε α'}
    {g : β → Action δ β'} (hx : Carried image a b error value s x y)
    (hf : ∀ v t, x a s = (.ok v, t) → Carried image a b error value' t (f v) (g (value v))) :
    Carried image a b error value' s (x >>= f) (y >>= g) := by
  change Carried image a b error value' s (andThen x f) (andThen y g)
  unfold Carried andThen
  rw [hx]
  cases h : x a s with
  | mk result t =>
    cases result with
    | ok v => exact hf v t h
    | error e => rfl

theorem Carried.mapError {error' : ε' → δ'} {x : Action ε α} {y : Action δ β} {f : ε → ε'}
    {g : δ → δ'} (hx : Carried image a b error value s x y) (hf : ∀ e, g (error e) = error' (f e)) :
    Carried image a b error' value s (x.mapError f) (y.mapError g) := by
  unfold Carried Action.mapError
  rw [hx]
  cases h : x a s with
  | mk result t =>
    cases result with
    | ok v => rfl
    | error e => exact congrArg (fun e => (Except.error e, image t)) (hf e)

theorem Carried.attempt {error' : ε' → δ'} {x y : Action ε α}
    (hx : Carried image a b id id s x y) : Carried image a b error' id s x.attempt y.attempt := by
  unfold Carried Action.attempt
  rw [hx]
  cases h : x a s with
  | mk result t => cases result <;> rfl

theorem Carried.foldlM {ι κ : Type} {f : α → ι → Action ε α} {g : β → κ → Action δ β} {name : ι → κ}
    {motive : α → Prop}
    (hf : ∀ v i t, motive v → Carried image a b error value t (f v i) (g (value v) (name i)))
    (hm : ∀ v i t w u, motive v → f v i a t = (.ok w, u) → motive w)
    (list : List ι) {v : α} (h : motive v) :
    Carried image a b error value s (list.foldlM f v)
      ((list.map name).foldlM g (value v)) := by
  induction list generalizing v s with
  | nil => exact .pure rfl
  | cons i rest ih =>
    rw [List.map_cons, List.foldlM_cons, List.foldlM_cons]
    exact (hf v i s h).bind fun w t hw => ih (hm v i s w t h hw)

theorem Carried.statement {value : α → β} {change : Access → Store → Except StoreError (α × Store)}
    {change' : Access → Store → Except StoreError (β × Store)} (h : Access.Alike image a b)
    (hc : change' b (image s) = (change a s).map (Prod.map value image)) :
    Carried image a b id value s (statement change) (statement change') := by
  unfold Carried SymbolAtlas.statement
  rw [h.writeRefusal?]
  cases a.writeRefusal? with
  | some e => rfl
  | none =>
    simp only [hc]
    cases change a s with
    | ok result => rfl
    | error e => rfl

theorem Carried.transaction {x : Action ε α} {y : Action δ β} {immediate : Bool}
    {refused : StoreError → ε} {refused' : StoreError → δ} (h : Access.Alike image a b)
    (hx : Carried image { a with inTransaction := true } { b with inTransaction := true } error
      value s x y) (hr : ∀ e, refused' e = error (refused e)) :
    Carried image a b error value s (transaction immediate refused x)
      (transaction immediate refused' y) := by
  unfold Carried Action.transaction
  rw [h.beginRefusal?]
  cases a.beginRefusal? immediate with
  | some e => exact congrArg (fun e => (Except.error e, image s)) (hr e)
  | none =>
    simp only
    rw [hx]
    -- What the body does is carried over; a commit that fails gives back the store before it.
    cases x { a with inTransaction := true } s with
    | mk result t =>
      cases result with
      | error e => rfl
      | ok v =>
        simp only [Except.map, Except.mapError, h.commitFails]
        cases a.commitFails t with
        | none => rfl
        | some e => exact congrArg (fun e => (Except.error e, image s)) (hr e)

end Action

/-- The number that a bucket of the run `owner` goes by if only the buckets of `run` have other
numbers. -/
def bucketName (run : Int) (name : Int → Int) (owner : Int) : Int → Int :=
  if owner = run then name else id

theorem bucketName_injective {name : Int → Int} (h : Function.Injective name) (run owner : Int) :
    Function.Injective (bucketName run name owner) := by
  unfold bucketName
  split
  next => exact h
  next => exact Function.injective_id

namespace ResultSet

def renamed (run : Int) (name : Int → Int) (r : ResultSet) : ResultSet :=
  { r with
    definitions := r.definitions.map (bucketName run name r.run)
    references := r.references.map (bucketName run name r.run)
    typeDefinition := r.typeDefinition.map (bucketName run name r.run)
    implementation := r.implementation.map (bucketName run name r.run) }

variable (run : Int) (name : Int → Int) (r : ResultSet)

theorem bucket?_renamed (kind : BucketKind) :
    (r.renamed run name).bucket? kind = (r.bucket? kind).map (bucketName run name r.run) := by
  cases kind <;> rfl

theorem renamed_setBucket (bucket : Int) (kind : BucketKind) :
    (r.setBucket bucket kind).renamed run name =
      (r.renamed run name).setBucket (bucketName run name r.run bucket) kind := by
  cases kind <;> rfl

end ResultSet

def Item.renamed (run : Int) (name : Int → Int) (i : Item) : Item :=
  { i with bucket := bucketName run name i.run i.bucket }

def ReferenceItem.renamed (run : Int) (name : Int → Int) (i : ReferenceItem) : ReferenceItem :=
  { i with toItem := i.toItem.renamed run name }

/-- The store with other numbers for the buckets of one run. -/
def Store.renamed (s : Store) (run : Int) (name : Int → Int) : Store :=
  { s with
    resultSets := s.resultSets.modifyAll (.renamed run name)
    definitionItems := s.definitionItems.modifyAll (.renamed run name)
    referenceItems := s.referenceItems.modifyAll (.renamed run name) }

/-- What a dump says about itself, as a change of its run. -/
def Run.describe (projectRoot lsifVersion : Option String) (r : Run) : Run :=
  { r with
    projectRoot := projectRoot <|> r.projectRoot
    lsifVersion := lsifVersion <|> r.lsifVersion }

/-- Other numbers for the buckets of one run, no two of them alike, and another way to write down
runs, which keeps their numbers and lets them be described. -/
structure StoreRenaming where
  run : Int
  name : Int → Int
  injective : Function.Injective name
  runs : Table Run → Table Run
  has_runs : ∀ t id, (runs t).has id = t.has id
  describe_runs : ∀ t id projectRoot lsifVersion,
    runs (t.modify id (Run.describe projectRoot lsifVersion)) =
      (runs t).modify id (Run.describe projectRoot lsifVersion)

namespace Table

variable {α : Type}

theorem has_modifyAll (t : Table α) (change : α → α) (id : Int) :
    (t.modifyAll change).has id = t.has id := by
  unfold has
  rw [get?_modifyAll, Option.isSome_map]

theorem modifyAll_insert (t : Table α) (change : α → α) (row : α) :
    (t.insert row).modifyAll change = (t.modifyAll change).insert (change row) := by
  simp [insert, modifyAll]

theorem modifyAll_modify (t : Table α) {change change' all : α → α} {id : Int}
    (h : ∀ r ∈ t.rows, r.1 = id → all (change r.2) = change' (all r.2)) :
    (t.modify id change).modifyAll all = (t.modifyAll all).modify id change' := by
  simp only [modify, modifyAll, List.map_map, mk.injEq, true_and]
  refine List.map_congr_left fun r hr => ?_
  by_cases hid : r.1 = id
  · simp [hid, h r hr hid]
  · simp [hid]

end Table

namespace StoreRenaming

variable (c : StoreRenaming)

def store (s : Store) : Store := { s.renamed c.run c.name with runs := c.runs s.runs }

/-- The row that a result set has in the store belongs to the run whose buckets are renamed, as far
as it makes a difference. -/
def Owns (s : Store) (resultSet : Int) : Prop :=
  ∀ r ∈ s.resultSets.rows, r.1 = resultSet → bucketName c.run c.name r.2.run = c.name

/-- The buckets of one run under other names, and nothing else. -/
def ofBuckets (run : Int) {name : Int → Int} (h : Function.Injective name) : StoreRenaming where
  run := run
  name := name
  injective := h
  runs t := t
  has_runs _ _ := rfl
  describe_runs _ _ _ _ := rfl

variable {c} {s : Store}

theorem has_store_runs (id : Int) : (c.store s).runs.has id = s.runs.has id := c.has_runs _ id

theorem has_store_resultSets (id : Int) : (c.store s).resultSets.has id = s.resultSets.has id :=
  Table.has_modifyAll _ _ id

theorem hasOption_store_resultSets (id : Option Int) :
    (c.store s).resultSets.hasOption id = s.resultSets.hasOption id := by
  cases id with
  | none => rfl
  | some id => exact has_store_resultSets id

theorem itemNamesRows_store (item : Item) :
    (c.store s).itemNamesRows item = s.itemNamesRows item :=
  congrArg (fun live => live && s.documents.has item.document && s.ranges.has item.range)
    (has_store_runs item.run)

theorem store_modify_resultSets {change change' : ResultSet → ResultSet} {resultSet : Int}
    (h : ∀ r ∈ s.resultSets.rows, r.1 = resultSet →
      (change r.2).renamed c.run c.name = change' (r.2.renamed c.run c.name)) :
    { c.store s with resultSets := (c.store s).resultSets.modify resultSet change' } =
      c.store { s with resultSets := s.resultSets.modify resultSet change } :=
  congrArg (fun resultSets => { c.store s with resultSets := resultSets })
    (Table.modifyAll_modify s.resultSets h).symm

end StoreRenaming

open SymbolAtlas.Action (Carried)

section Statements

variable {c : StoreRenaming} {a b : Access} (h : a.Alike c.store b) (s : Store)
include h

/-- Statements that add a row under a condition. -/
theorem adding_carried {α : Type} {touches : List Touch} {p : Store → Bool} {cause : EngineFailure}
    {v : Store → α} {w w' : Store → Store} (hp : p (c.store s) = p s) (hv : v (c.store s) = v s)
    (hw : w' (c.store s) = c.store (w s)) :
    Carried c.store a b id id s
      (statement fun access store => do
        access.permit store touches
        require (p store) cause
        return (v store, w store))
      (statement fun access store => do
        access.permit store touches
        require (p store) cause
        return (v store, w' store)) := by
  refine .statement h ?_
  rw [h.permit, hp, hv, hw]
  cases a.permit s touches <;> cases require (p s) cause <;> rfl

theorem changing_carried {touches : List Touch} {p q : Store → Bool} {cause : EngineFailure}
    {w w' : Store → Store} (hp : p (c.store s) = p s) (hq : q (c.store s) = q s)
    (hw : w' (c.store s) = c.store (w s)) :
    Carried c.store a b id id s
      (statement fun access store => do
        if p store then
          access.permit store touches
          require (q store) cause
        return ((), w store))
      (statement fun access store => do
        if p store then
          access.permit store touches
          require (q store) cause
        return ((), w' store)) := by
  refine .statement h ?_
  rw [h.permit, hp, hq, hw]
  cases p s <;> cases a.permit s touches <;> cases require (q s) cause <;> rfl

theorem touching_carried {α : Type} {touches : List Touch} {p : Store → Bool} {v : Store → α}
    {w w' : Store → Store} (hp : p (c.store s) = p s) (hv : v (c.store s) = v s)
    (hw : w' (c.store s) = c.store (w s)) :
    Carried c.store a b id id s
      (statement fun access store => do
        if p store then access.permit store touches
        return (v store, w store))
      (statement fun access store => do
        if p store then access.permit store touches
        return (v store, w' store)) := by
  refine .statement h ?_
  rw [h.permit, hp, hv, hw]
  cases p s <;> cases a.permit s touches <;> rfl

theorem addRun_carried {about : RunMeta} (hs : c.store s = s)
    (hrun : c.store (s.withRun about (about.createdAt.getD a.clock)) =
      s.withRun about (about.createdAt.getD b.clock)) :
    Carried c.store a b id id s (addRun about) (addRun about) := by
  refine .statement h ?_
  rw [h.permit, hs]
  cases a.permit s _ with
  | error e => rfl
  | ok => exact congrArg (fun t => Except.ok (s.runs.last + 1, t)) hrun.symm

theorem describeRun_carried (run : Int) (projectRoot lsifVersion : Option String) :
    Carried c.store a b id id s (describeRun run projectRoot lsifVersion)
      (describeRun run projectRoot lsifVersion) := by
  have hrow : (c.store s).describing run projectRoot lsifVersion =
      c.store (s.describing run projectRoot lsifVersion) :=
    congrArg (fun runs => { s.renamed c.run c.name with runs := runs })
      (c.describe_runs s.runs run projectRoot lsifVersion).symm
  exact touching_carried h s (StoreRenaming.has_store_runs run) rfl hrow

theorem addDocument_carried (run : Int) (uri : String) (languageId : Option String) :
    Carried c.store a b id id s (addDocument run uri languageId)
      (addDocument run uri languageId) :=
  adding_carried h s (StoreRenaming.has_store_runs run) rfl rfl

theorem addHover_carried (run : Int) (contents : String) :
    Carried c.store a b id id s (addHover run contents) (addHover run contents) :=
  adding_carried h s (StoreRenaming.has_store_runs run) rfl rfl

theorem addPackage_carried (run : Int) (name : String) (version manager : Option String) :
    Carried c.store a b id id s (addPackage run name version manager)
      (addPackage run name version manager) :=
  adding_carried h s (StoreRenaming.has_store_runs run) rfl rfl

theorem addMoniker_carried (run : Int) (scheme identifier : String) (kind : Option String)
    (package : Option Int) :
    Carried c.store a b id id s (addMoniker run scheme identifier kind package)
      (addMoniker run scheme identifier kind package) :=
  adding_carried h s
    (congrArg (· && s.packages.hasOption package) (StoreRenaming.has_store_runs run)) rfl rfl

theorem setPackage_carried (moniker package : Int) :
    Carried c.store a b id id s (setPackage moniker package) (setPackage moniker package) :=
  changing_carried h s rfl rfl rfl

theorem internSymbol_carried (scheme identifier : String) (kind : Option String) :
    Carried c.store a b id id s (internSymbol scheme identifier kind)
      (internSymbol scheme identifier kind) := by
  have hname : (c.store s).symbolNamed? scheme identifier = s.symbolNamed? scheme identifier := rfl
  refine .statement h ?_
  rw [h.permit]
  simp only [hname]
  cases a.permit s _ <;> cases s.symbolNamed? scheme identifier <;> rfl

theorem linkSymbol_carried (moniker symbol : Int) :
    Carried c.store a b id id s (linkSymbol moniker symbol) (linkSymbol moniker symbol) := by
  have hsymbol : (c.store s).symbolOf? moniker = s.symbolOf? moniker := rfl
  have hrows : ((c.store s).monikers.has moniker && (c.store s).symbols.has symbol) =
      (s.monikers.has moniker && s.symbols.has symbol) := rfl
  refine .statement h ?_
  rw [h.permit, hsymbol, hrows]
  cases a.permit s _ <;>
    cases require (s.symbolOf? moniker).isNone .repeatedMonikerLink <;>
      cases require (s.monikers.has moniker && s.symbols.has symbol) .foreignKey <;> rfl

theorem addResultSet_carried (run : Int) :
    Carried c.store a b id id s (addResultSet run) (addResultSet run) := by
  have hrow : (c.store s).withResultSet run = c.store (s.withResultSet run) :=
    congrArg (fun resultSets => { c.store s with resultSets := resultSets })
      (Table.modifyAll_insert s.resultSets (.renamed c.run c.name) { run := run }).symm
  exact adding_carried h s (StoreRenaming.has_store_runs run) rfl hrow

theorem setBucket_carried {resultSet : Int} (ho : c.Owns s resultSet) (kind : BucketKind)
    (bucket : Int) :
    Carried c.store a b id id s (setBucket resultSet kind bucket)
      (setBucket resultSet kind (c.name bucket)) := by
  have hrow : (c.store s).settingBucket resultSet kind (c.name bucket) =
      c.store (s.settingBucket resultSet kind bucket) := by
    refine StoreRenaming.store_modify_resultSets fun r hr hid => ?_
    rw [ResultSet.renamed_setBucket, ho r hr hid]
  exact touching_carried h s (StoreRenaming.has_store_resultSets resultSet) rfl hrow

theorem setHover_carried (resultSet hover : Int) :
    Carried c.store a b id id s (setHover resultSet hover) (setHover resultSet hover) := by
  have hrow : (c.store s).settingHover resultSet hover = c.store (s.settingHover resultSet hover) :=
    StoreRenaming.store_modify_resultSets fun _ _ _ => rfl
  exact changing_carried h s (StoreRenaming.has_store_resultSets resultSet) rfl hrow

theorem setMoniker_carried (resultSet moniker : Int) :
    Carried c.store a b id id s (setMoniker resultSet moniker) (setMoniker resultSet moniker) := by
  have hrow : (c.store s).settingMoniker resultSet moniker =
      c.store (s.settingMoniker resultSet moniker) :=
    StoreRenaming.store_modify_resultSets fun _ _ _ => rfl
  exact changing_carried h s (StoreRenaming.has_store_resultSets resultSet) rfl hrow

theorem addRange_carried (document : Int) (span : Span) (resultSet : Option Int) :
    Carried c.store a b id id s (addRange document span resultSet)
      (addRange document span resultSet) :=
  adding_carried h s
    (congrArg (s.documents.has document && ·) (StoreRenaming.hasOption_store_resultSets resultSet))
    rfl rfl

theorem setResultSet_carried (range resultSet : Int) :
    Carried c.store a b id id s (setResultSet range resultSet) (setResultSet range resultSet) :=
  changing_carried h s rfl (StoreRenaming.has_store_resultSets resultSet) rfl

theorem addDefinition_carried {item : Item} (hr : item.run = c.run) :
    Carried c.store a b id id s (addDefinition item)
      (addDefinition { item with bucket := c.name item.bucket }) := by
  have hitem : item.renamed c.run c.name = { item with bucket := c.name item.bucket } := by
    simp [Item.renamed, bucketName, hr]
  have hrow : (c.store s).withDefinition (item.renamed c.run c.name) =
      c.store (s.withDefinition item) :=
    congrArg (fun items => { c.store s with definitionItems := items })
      (Table.modifyAll_insert s.definitionItems (.renamed c.run c.name) item).symm
  rw [← hitem]
  exact adding_carried h s (StoreRenaming.itemNamesRows_store item) rfl hrow

theorem addReference_carried {item : Item} (hr : item.run = c.run) (isDefinition : Bool) :
    Carried c.store a b id id s (addReference item isDefinition)
      (addReference { item with bucket := c.name item.bucket } isDefinition) := by
  have hitem : item.renamed c.run c.name = { item with bucket := c.name item.bucket } := by
    simp [Item.renamed, bucketName, hr]
  have hrow : (c.store s).withReference (item.renamed c.run c.name) isDefinition =
      c.store (s.withReference item isDefinition) :=
    congrArg (fun items => { c.store s with referenceItems := items })
      (Table.modifyAll_insert s.referenceItems (.renamed c.run c.name)
        { item with isDefinition := isDefinition }).symm
  rw [← hitem]
  exact adding_carried h s (StoreRenaming.itemNamesRows_store item) rfl hrow

end Statements

theorem StoreRenaming.symbolsOfItem_store (c : StoreRenaming) (s : Store) (kind : BucketKind)
    (item : Item) :
    (c.store s).symbolsOfItem kind (item.renamed c.run c.name) = s.symbolsOfItem kind item := by
  have hrows : (c.store s).resultSets.rows =
      s.resultSets.rows.map fun r => (r.1, r.2.renamed c.run c.name) := rfl
  unfold Store.symbolsOfItem
  rw [hrows, List.filterMap_map]
  refine List.filterMap_congr fun r _ => ?_
  have hrun : (r.2.renamed c.run c.name).run = r.2.run := rfl
  have hitem : (item.renamed c.run c.name).run = item.run := rfl
  simp only [Function.comp_apply, hrun, hitem, ResultSet.bucket?_renamed]
  by_cases he : r.2.run = item.run
  · -- Of one run, they have the same bucket in either store.
    have hbucket : (r.2.bucket? kind).map (bucketName c.run c.name r.2.run) =
          some (item.renamed c.run c.name).bucket ↔
        r.2.bucket? kind = some item.bucket := by
      rw [Item.renamed, ← he]
      exact (Option.map_injective (bucketName_injective c.injective c.run r.2.run)).eq_iff
        (b := some item.bucket)
    simp only [hbucket]
    rfl
  · simp [he]

theorem StoreRenaming.found_store (c : StoreRenaming) (s : Store) (run : Int) (pass : Pass) :
    (c.store s).found run pass = s.found run pass := by
  have hitems : (c.store s).passItems pass =
      (s.passItems pass).map fun p => (p.1.renamed c.run c.name, p.2) := by
    have hdefinitions : (c.store s).definitionItems.rows =
        s.definitionItems.rows.map fun r => (r.1, r.2.renamed c.run c.name) := rfl
    have hreferences : (c.store s).referenceItems.rows =
        s.referenceItems.rows.map fun r => (r.1, r.2.renamed c.run c.name) := rfl
    cases pass <;> simp only [Store.passItems, hdefinitions, hreferences, List.map_map] <;> rfl
  unfold Store.found
  rw [hitems, List.flatMap_map]
  simp only [StoreRenaming.symbolsOfItem_store]
  rfl

theorem derivePass_carried {c : StoreRenaming} {a b : Access} (h : a.Alike c.store b) (s : Store)
    (run : Int) (pass : Pass) :
    Carried c.store a b id id s (derivePass run pass) (derivePass run pass) := by
  have hfound := c.found_store s run pass
  have hrow : (c.store s).withPass run pass = c.store (s.withPass run pass) := by
    unfold Store.withPass
    rw [hfound]
    rfl
  have hcount : ((c.store s).withPass run pass).occurrences.length -
        (c.store s).occurrences.length =
      (s.withPass run pass).occurrences.length - s.occurrences.length := by
    rw [hrow]
    rfl
  exact touching_carried h s (congrArg (!List.isEmpty ·) hfound) hcount hrow

theorem fillOccurrences_carried {c : StoreRenaming} {a b : Access} (h : a.Alike c.store b)
    (s : Store) (run : Int) :
    Carried c.store a b id id s (fillOccurrences run) (fillOccurrences run) := by
  refine (derivePass_carried h _ run _).bind fun definitions t _ => ?_
  refine (derivePass_carried h _ run _).bind fun references t _ => ?_
  refine (derivePass_carried h _ run _).bind fun implementations t _ => ?_
  exact (derivePass_carried h _ run _).bind fun types t _ => .pure rfl

theorem derivation_carried {c : StoreRenaming} {a b : Access} (h : a.Alike c.store b) (s : Store)
    (run : Int) :
    Carried c.store a b id id s (derivation false run) (derivation false run) :=
  .transaction h (fillOccurrences_carried h.within s run) fun _ => rfl

end SymbolAtlas
