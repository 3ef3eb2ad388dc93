import SymbolAtlas.Ingest.Run
import SymbolAtlas.Navigate

/-!
A direct reading of a dump.  What a position leads to can be read off the records alone, in the
order in which they come and by the ids that they use, without a store in between.
-/

namespace SymbolAtlas

namespace Span

/-- Fewer lines, or as many lines and fewer characters. -/
def smaller (a b : Span) : Bool :=
  decide (a.lineSpan < b.lineSpan)
    || (decide (a.lineSpan = b.lineSpan) && decide (a.characterSpan < b.characterSpan))

end Span

namespace Element

/-- The id that a record declares. -/
def vertexId? : Element → Option Int
  | .vertex (.document id _ _) => some id
  | .vertex (.range id _) => some id
  | .vertex (.resultSet id) => some id
  | .vertex (.moniker id _ _ _ _) => some id
  | .vertex (.hoverResult id _) => some id
  | .vertex (.packageInformation id _ _ _) => some id
  | .vertex (.bucket _ id) => some id
  | _ => none

end Element

/-- The records of a stream in their order.  Blank and malformed lines have none. -/
def ByteStream.records (s : ByteStream) : List Element :=
  s.lines.filterMap fun bytes => Element.ofLine? (trimLine bytes)

/-- The records that have been read, the latest first. -/
abbrev Past := List Element

/-- A range that a document has claimed. -/
structure Claim where
  range : Int
  uri : String
  span : Span
deriving DecidableEq

namespace Claim

/-- Where a claimed range is. -/
def locationIn? (claims : List Claim) (range : Int) : Option Location :=
  (claims.find? fun c => c.range == range).map fun c => ⟨c.uri, c.span⟩

/-- The claims in a document that cover a position. -/
def covering (claims : List Claim) (uri : String) (p : Position) : List Claim :=
  claims.filter fun c => c.uri == uri && c.span.contains p

/-- The first claim that no other is smaller than, of those that cover a position. -/
def innermost? (claims : List Claim) (uri : String) (p : Position) : Option Claim :=
  (covering claims uri p).find? fun c =>
    (covering claims uri p).all fun d => !d.span.smaller c.span

end Claim

namespace Past

variable {α : Type}

def ids (past : Past) : List Int := past.filterMap Element.vertexId?

/-- The latest thing said, by a record in view of those before it. -/
def latest (tells : Element → Past → Option α) : Past → Option α
  | [] => none
  | e :: past => (tells e past).or (latest tells past)

/-- The first thing said. -/
def earliest (tells : Element → Option α) : Past → Option α
  | [] => none
  | e :: past =>
    match tells e with
    | some a => some ((earliest tells past).getD a)
    | none => earliest tells past

def uri? (past : Past) (id : Int) : Option String :=
  past.latest fun e _ =>
    match e with
    | .vertex (.document d uri _) => if id = d then some uri else none
    | _ => none

def span? (past : Past) (id : Int) : Option Span :=
  past.latest fun e _ =>
    match e with
    | .vertex (.range r span) => if id = r then some span else none
    | _ => none

def text? (past : Past) (id : Int) : Option String :=
  past.latest fun e _ =>
    match e with
    | .vertex (.hoverResult h result) => if id = h then some result.hoverText else none
    | _ => none

def hasResultSet (past : Past) (id : Int) : Bool :=
  past.any fun e =>
    match e with
    | .vertex (.resultSet r) => decide (id = r)
    | _ => false

/-- The result set of a range: that of the last `next` edge that came after both of them. -/
def resultSet? (past : Past) (range : Int) : Option Int :=
  past.latest fun e past =>
    match e with
    | .edge (.next outV inV) =>
      if range = outV ∧ (past.span? range).isSome ∧ past.hasResultSet inV then some inV else none
    | _ => none

/-- The result set that an id stands for, itself or through its range. -/
def resolve? (past : Past) (id : Int) : Option Int :=
  if past.hasResultSet id then some id else past.resultSet? id

/-- The text of a result set: that of the last hover edge that found both of its ends. -/
def hover? (past : Past) (resultSet : Int) : Option String :=
  past.latest fun e past =>
    match e with
    | .edge (.hover outV inV) =>
      if past.resolve? outV = some resultSet then past.text? inV else none
    | _ => none

/-- The bucket of definitions of a result set: that of the last edge that found the result set. -/
def definitions? (past : Past) (resultSet : Int) : Option Int :=
  past.latest fun e past =>
    match e with
    | .edge (.bucket .definitions outV inV) =>
      if past.resolve? outV = some resultSet then some inV else none
    | _ => none

/-- The kind of a bucket, which the first record decides that speaks of it. -/
def kind? (past : Past) (bucket : Int) : Option BucketKind :=
  past.earliest fun e =>
    match e with
    | .vertex (.bucket kind id) => if bucket = id then some kind else none
    | .edge (.bucket kind _ inV) => if bucket = inV then some kind else none
    | _ => none

/-- Whether an item edge leads to definitions. -/
def routed (past : Past) (bucket : Int) (property : Option String) : Bool :=
  match past.kind? bucket with
  | some .definitions => true
  | some .references => false
  | _ => Edge.isDefinitions property

/-- A document claims a range, if it is there and no document has claimed it before. -/
def claim (past : Past) (uri : String) (claims : List Claim) (id : Int) : List Claim :=
  match past.span? id with
  | some span => if claims.any fun c => c.range == id then claims else claims ++ [⟨id, uri, span⟩]
  | none => claims

def claims : Past → List Claim
  | [] => []
  | .edge (.contains outV inVs) :: past =>
    match Past.uri? past outV with
    | some uri => inVs.foldl (Past.claim past uri) (claims past)
    | none => claims past
  | _ :: past => claims past

/-- The claimed ranges that item edges have put into a bucket of definitions, in their order. -/
def definitionsIn (bucket : Int) : Past → List Location
  | [] => []
  | .edge (.item outV inVs inV property) :: past =>
    if outV = bucket ∧ Past.routed past outV property then
      definitionsIn bucket past ++
        (Edge.itemTargets inVs inV).filterMap (Claim.locationIn? (claims past))
    else definitionsIn bucket past
  | _ :: past => definitionsIn bucket past

def resultSetAt? (past : Past) (uri : String) (p : Position) : Option Int :=
  (Claim.innermost? past.claims uri p).bind fun c => past.resultSet? c.range

def hoverAt? (past : Past) (uri : String) (p : Position) : Option String :=
  (past.resultSetAt? uri p).bind past.hover?

def definitionsAt (past : Past) (uri : String) (p : Position) : List Location :=
  match (past.resultSetAt? uri p).bind past.definitions? with
  | some bucket => past.definitionsIn bucket
  | none => []

theorem hoverAt?_eq_none_iff {past : Past} {uri : String} {p : Position} :
    past.hoverAt? uri p = none ↔
      ¬ ∃ c resultSet text, Claim.innermost? past.claims uri p = some c ∧
        past.resultSet? c.range = some resultSet ∧ past.hover? resultSet = some text := by
  constructor
  · rintro h ⟨c, resultSet, text, hc, hr, ht⟩
    simp [hoverAt?, resultSetAt?, hc, hr, ht] at h
  · intro h
    cases hv : past.hoverAt? uri p with
    | none => rfl
    | some text =>
      obtain ⟨resultSet, hs, ht⟩ := Option.bind_eq_some_iff.mp hv
      obtain ⟨c, hc, hr⟩ := Option.bind_eq_some_iff.mp hs
      exact absurd ⟨c, resultSet, text, hc, hr, ht⟩ h

theorem definitionsAt_eq_nil_iff {past : Past} {uri : String} {p : Position} :
    past.definitionsAt uri p = [] ↔
      ¬ ∃ c resultSet bucket l, Claim.innermost? past.claims uri p = some c ∧
        past.resultSet? c.range = some resultSet ∧ past.definitions? resultSet = some bucket ∧
        l ∈ past.definitionsIn bucket := by
  unfold definitionsAt
  constructor
  · rintro h ⟨c, resultSet, bucket, l, hc, hr, hd, hl⟩
    have hb : (past.resultSetAt? uri p).bind past.definitions? = some bucket := by
      simp [resultSetAt?, hc, hr, hd]
    simp only [hb] at h
    simp [h] at hl
  · intro h
    split
    next bucket hb =>
      obtain ⟨resultSet, hs, hd⟩ := Option.bind_eq_some_iff.mp hb
      obtain ⟨c, hc, hr⟩ := Option.bind_eq_some_iff.mp hs
      refine List.eq_nil_iff_forall_not_mem.mpr fun l hl => ?_
      exact h ⟨c, resultSet, bucket, l, hc, hr, hd, hl⟩
    next => rfl

variable {past : Past} {e : Element} {id : Int}

theorem latest_cons (tells : Element → Past → Option α) (e : Element) (past : Past) :
    latest tells (e :: past) = (tells e past).or (latest tells past) := rfl

theorem earliest_cons (tells : Element → Option α) (e : Element) (past : Past) :
    earliest tells (e :: past) = (earliest tells past).or (tells e) := by
  simp only [earliest]
  cases tells e <;> cases earliest tells past <;> rfl

theorem kind?_cons (e : Element) (past : Past) (bucket : Int) :
    kind? (e :: past) bucket = (kind? past bucket).or (kind? [e] bucket) := by
  unfold kind?
  rw [earliest_cons, earliest_cons _ e []]
  rfl

/-- What holds when something is said, and goes on holding, holds in the end. -/
theorem of_latest {tells : Element → Past → Option α} {a : α} {motive : Past → Prop}
    (keeps : ∀ e past, motive past → motive (e :: past))
    (said : ∀ e past, tells e past = some a → motive (e :: past))
    (h : latest tells past = some a) : motive past := by
  induction past with
  | nil => simp [latest] at h
  | cons e past ih =>
    rw [latest_cons, Option.or_eq_some_iff] at h
    rcases h with h | ⟨-, h⟩
    · exact said e past h
    · exact keeps e past (ih h)

theorem mem_ids_of_said (h : e.vertexId? = some id) : id ∈ ids (e :: past) :=
  List.mem_filterMap.mpr ⟨e, List.mem_cons_self, h⟩

theorem mem_ids_cons (h : id ∈ ids past) : id ∈ ids (e :: past) := by
  obtain ⟨a, ha, he⟩ := List.mem_filterMap.mp h
  exact List.mem_filterMap.mpr ⟨a, List.mem_cons_of_mem _ ha, he⟩

theorem mem_ids_of_span? {span : Span} (h : span? past id = some span) : id ∈ ids past := by
  refine of_latest (motive := fun past => id ∈ ids past) (fun _ _ => mem_ids_cons)
    (fun e past he => ?_) h
  split at he
  next r _ =>
    split at he
    next hid => exact mem_ids_of_said (congrArg some hid.symm)
    next => simp at he
  next => simp at he

theorem hasResultSet_cons (h : hasResultSet past id = true) :
    hasResultSet (e :: past) id = true := by
  unfold hasResultSet at h ⊢
  rw [List.any_cons, h, Bool.or_true]

theorem mem_ids_of_hasResultSet (h : hasResultSet past id = true) : id ∈ ids past := by
  obtain ⟨e, he, hs⟩ := List.any_eq_true.mp h
  refine List.mem_filterMap.mpr ⟨e, he, ?_⟩
  split at hs
  next r => exact congrArg some (of_decide_eq_true hs).symm
  next => simp at hs

theorem span?_cons (h : (span? past id).isSome = true) : (span? (e :: past) id).isSome = true := by
  unfold span? at h ⊢
  rw [latest_cons, Option.isSome_or, h, Bool.or_true]

theorem resultSet?_seen {resultSet : Int} (h : resultSet? past id = some resultSet) :
    (span? past id).isSome = true ∧ hasResultSet past resultSet = true := by
  refine of_latest (motive := fun past => (span? past id).isSome = true ∧
    hasResultSet past resultSet = true) (fun _ _ hp => ⟨span?_cons hp.1, hasResultSet_cons hp.2⟩)
    (fun e past he => ?_) h
  split at he
  next outV inV =>
    split at he
    next hc =>
      cases Option.some.inj he
      exact ⟨span?_cons hc.2.1, hasResultSet_cons hc.2.2⟩
    next => simp at he
  next => simp at he

theorem resolve?_seen {resultSet : Int} (h : resolve? past id = some resultSet) :
    hasResultSet past resultSet = true := by
  unfold resolve? at h
  split at h
  next hs => exact Option.some.inj h ▸ hs
  next => exact (resultSet?_seen h).2

theorem hover?_seen {text : String} (h : hover? past id = some text) :
    hasResultSet past id = true := by
  refine of_latest (motive := fun past => hasResultSet past id = true)
    (fun _ _ => hasResultSet_cons) (fun e past he => ?_) h
  split at he
  next =>
    split at he
    next hr => exact hasResultSet_cons (resolve?_seen hr)
    next => simp at he
  next => simp at he

theorem definitions?_seen {bucket : Int} (h : definitions? past id = some bucket) :
    hasResultSet past id = true := by
  refine of_latest (motive := fun past => hasResultSet past id = true)
    (fun _ _ => hasResultSet_cons) (fun e past he => ?_) h
  split at he
  next =>
    split at he
    next hr => exact hasResultSet_cons (resolve?_seen hr)
    next => simp at he
  next => simp at he

theorem fresh_id (hn : (ids (e :: past)).Nodup) (he : e.vertexId? = some id) : id ∉ ids past := by
  unfold ids at hn
  rw [List.filterMap_cons_some he] at hn
  exact (List.nodup_cons.mp hn).1

end Past

end SymbolAtlas
