import SymbolAtlas.Proofs.Stage

/-!
Two ingests side by side.  They write the same as long as they know the same about ids; their
counts do not matter, and the kind of a bucket matters only to item edges from it.
-/

namespace SymbolAtlas

namespace Action

variable {ε δ ε' δ' α β α' β' : Type} {R : α → β → Prop} {R' : α' → β' → Prop}

/-- Whenever the first action succeeds, the second one does as well, with a related result and the
same store. -/
def Follows (R : α → β → Prop) (x : Action ε α) (y : Action δ β) : Prop :=
  ∀ (access : Access) (s t : Store) (a : α), x access s = (.ok a, t) →
    ∃ b, y access s = (.ok b, t) ∧ R a b

theorem Follows.refl (x : Action ε α) : Follows Eq x x := fun _ _ _ a h => ⟨a, h, rfl⟩

theorem Follows.pure {a : α} {b : β} (h : R a b) :
    Follows R (Pure.pure a : Action ε α) (Pure.pure b : Action δ β) := by
  intro access s t c hc
  obtain ⟨rfl, rfl⟩ := pure_ok_iff.mp hc
  exact ⟨b, rfl, h⟩

theorem Follows.bind {x : Action ε α} {y : Action δ β} {f : α → Action ε α'} {g : β → Action δ β'}
    (hx : Follows R x y) (hf : ∀ a b, R a b → Follows R' (f a) (g b)) :
    Follows R' (x >>= f) (y >>= g) := by
  intro access s t c hc
  obtain ⟨a, u, ha, hfa⟩ := bind_ok_iff.mp hc
  obtain ⟨b, hb, hr⟩ := hx _ _ _ _ ha
  obtain ⟨d, hd, hr'⟩ := hf a b hr _ _ _ _ hfa
  exact ⟨d, bind_ok_iff.mpr ⟨b, u, hb, hd⟩, hr'⟩

theorem Follows.mapError {x : Action ε α} {y : Action δ β} (h : Follows R x y) (f : ε → ε')
    (g : δ → δ') : Follows R (x.mapError f) (y.mapError g) := by
  intro access s t a ha
  obtain ⟨b, hb, hr⟩ := h _ _ _ _ (mapError_ok_iff.mp ha)
  exact ⟨b, mapError_ok_iff.mpr hb, hr⟩

theorem Follows.foldlM {ι : Type} {f : α → ι → Action ε α} {g : β → ι → Action δ β}
    (hf : ∀ {a b} (i : ι), R a b → Follows R (f a i) (g b i)) (list : List ι) {a : α} {b : β}
    (h : R a b) : Follows R (list.foldlM f a) (list.foldlM g b) := by
  induction list generalizing a b with
  | nil => exact .pure h
  | cons i rest ih =>
    rw [List.foldlM_cons, List.foldlM_cons]
    exact (hf i h).bind fun _ _ hr => ih hr

end Action

namespace Known

variable {off : Int → Prop} {k l : Known}

theorem learnKind_eq (k : Known) (bucket : Int) (kind : BucketKind) :
    k.learnKind bucket kind = { k with kinds := (k.learnKind bucket kind).kinds } := by
  unfold learnKind
  split <;> rfl

theorem learnKind_of_known {bucket : Int} (h : (k.kindOf? bucket).isSome = true)
    (kind : BucketKind) : k.learnKind bucket kind = k := if_pos h

/-- The same is known, but for the kinds of some buckets. -/
def AgreesOff (off : Int → Prop) (k l : Known) : Prop :=
  ∃ kinds, l = { k with kinds := kinds } ∧ ∀ id, ¬ off id → kinds.get? id = k.kinds.get? id

theorem AgreesOff.refl (off : Int → Prop) (k : Known) : AgreesOff off k k :=
  ⟨k.kinds, rfl, fun _ _ => rfl⟩

theorem agreesOff_learnKind (k : Known) (bucket : Int) (kind : BucketKind) :
    AgreesOff (· = bucket) (k.learnKind bucket kind) k := by
  refine ⟨k.kinds, ?_, fun id hid => ?_⟩
  · rw [learnKind_eq]
  · have hk := kindOf?_learnKind k bucket id kind
    rw [if_neg hid, Option.or_none] at hk
    exact hk.symm

theorem AgreesOff.learnKind (h : AgreesOff off k l) (bucket : Int) (kind : BucketKind) :
    AgreesOff off (k.learnKind bucket kind) (l.learnKind bucket kind) := by
  obtain ⟨kinds, rfl, hk⟩ := h
  refine ⟨(({ k with kinds := kinds } : Known).learnKind bucket kind).kinds, ?_, fun id hid => ?_⟩
  · rw [learnKind_eq { k with kinds := kinds }, learnKind_eq k]
  · have hl := kindOf?_learnKind { k with kinds := kinds } bucket id kind
    have hr := kindOf?_learnKind k bucket id kind
    have he : ({ k with kinds := kinds } : Known).kindOf? id = k.kindOf? id := hk id hid
    rw [he, ← hr] at hl
    exact hl

end Known

/-- The bucket that a record puts ranges into. -/
def Element.itemBucket? : Element → Option Int
  | .edge (.item outV _ _ _) => some outV
  | _ => none

/-- The bucket that the record on a line puts ranges into. -/
def bucketOfLine? (bytes : List UInt8) : Option Int :=
  (Element.ofLine? (trimLine bytes)).bind Element.itemBucket?

namespace Ingestion

open SymbolAtlas.Action

variable {off : Int → Prop} {g h : Ingestion}

/-- Two ingests of one run that know the same, but for the kinds of some buckets. -/
structure Beside (off : Int → Prop) (g h : Ingestion) : Prop where
  run : h.run = g.run
  known : g.known.AgreesOff off h.known

theorem Beside.opened (hb : Beside off g h) :
    ∃ kinds report, h = { g with known := { g.known with kinds := kinds }, report := report } ∧
      ∀ id, ¬ off id → kinds.get? id = g.known.kinds.get? id := by
  obtain ⟨hr, kinds, he, hk⟩ := hb
  cases h
  cases hr
  cases he
  exact ⟨kinds, _, rfl, hk⟩

theorem vertex_follows (hb : Beside off g h) (v : Vertex) :
    Follows (Beside off) (g.vertex v) (h.vertex v) := by
  obtain ⟨kinds, report, rfl, hk⟩ := hb.opened
  cases v with
  | metaData version projectRoot =>
    exact (Follows.refl _).bind fun _ _ _ => .pure ⟨rfl, kinds, rfl, hk⟩
  | document id uri languageId =>
    exact (Follows.refl _).bind fun _ _ hr => .pure ⟨rfl, kinds, by rw [hr]; rfl, hk⟩
  | range id span => exact .pure ⟨rfl, kinds, rfl, hk⟩
  | resultSet id =>
    exact (Follows.refl _).bind fun _ _ hr => .pure ⟨rfl, kinds, by rw [hr]; rfl, hk⟩
  | hoverResult id result =>
    exact (Follows.refl _).bind fun _ _ hr => .pure ⟨rfl, kinds, by rw [hr]; rfl, hk⟩
  | packageInformation id name version manager =>
    exact (Follows.refl _).bind fun _ _ hr => .pure ⟨rfl, kinds, by rw [hr]; rfl, hk⟩
  | moniker id scheme identifier kind package =>
    refine (Follows.refl _).bind fun row _ hr => ?_
    subst hr
    refine (Follows.refl _).bind fun symbol _ hs => ?_
    subst hs
    exact (Follows.refl _).bind fun _ _ _ => .pure ⟨rfl, kinds, rfl, hk⟩
  | bucket kind id => exact .pure ⟨rfl, Known.AgreesOff.learnKind ⟨kinds, rfl, hk⟩ id kind⟩
  | other => exact .pure ⟨rfl, kinds, rfl, hk⟩

theorem claim_follows (document id : Int) (hb : Beside off g h) :
    Follows (Beside off) (claim document g id) (claim document h id) := by
  obtain ⟨kinds, report, rfl, hk⟩ := hb.opened
  unfold claim
  dsimp only
  split
  next => exact .pure ⟨rfl, kinds, rfl, hk⟩
  next => exact (Follows.refl _).bind fun _ _ hr => .pure ⟨rfl, kinds, by rw [hr]; rfl, hk⟩

theorem next_follows (outV inV : Int) (hb : Beside off g h) :
    Follows (Beside off) (g.next outV inV) (h.next outV inV) := by
  obtain ⟨kinds, report, rfl, hk⟩ := hb.opened
  unfold next
  dsimp only
  split
  next => exact .pure ⟨rfl, kinds, rfl, hk⟩
  next =>
    split
    next => exact .pure ⟨rfl, kinds, rfl, hk⟩
    next => exact (Follows.refl _).bind fun _ _ _ => .pure ⟨rfl, kinds, rfl, hk⟩
    next =>
      refine .pure ?_
      split <;> exact ⟨rfl, kinds, rfl, hk⟩

theorem bucket_follows (kind : BucketKind) (outV inV : Int) (hb : Beside off g h) :
    Follows (Beside off) (g.bucket kind outV inV) (h.bucket kind outV inV) := by
  have hl : Beside off (g.learn fun k => k.learnKind inV kind)
      (h.learn fun k => k.learnKind inV kind) := ⟨hb.run, hb.known.learnKind inV kind⟩
  unfold bucket
  generalize (g.learn fun k => k.learnKind inV kind) = g at hl ⊢
  generalize (h.learn fun k => k.learnKind inV kind) = h at hl ⊢
  obtain ⟨kinds, report, rfl, hk⟩ := hl.opened
  have hr : ({ g.known with kinds := kinds } : Known).resultSetOf? outV =
      g.known.resultSetOf? outV := rfl
  dsimp only
  rw [hr]
  split
  next => exact .pure ⟨rfl, kinds, rfl, hk⟩
  next => exact (Follows.refl _).bind fun _ _ _ => .pure ⟨rfl, kinds, rfl, hk⟩

theorem item_follows (bucket : Int) (property : Option String) (id : Int) (hn : ¬ off bucket)
    (hb : Beside off g h) :
    Follows (Beside off) (item bucket property g id) (item bucket property h id) := by
  obtain ⟨kinds, report, rfl, hk⟩ := hb.opened
  have hd : ({ g with known := { g.known with kinds := kinds }, report := report } :
      Ingestion).toDefinitions bucket property = g.toDefinitions bucket property := by
    unfold toDefinitions Known.kindOf?
    rw [hk bucket hn]
  unfold item
  rw [hd]
  dsimp only
  split
  next => exact .pure ⟨rfl, kinds, rfl, hk⟩
  next =>
    split
    next => exact (Follows.refl _).bind fun _ _ _ => .pure ⟨rfl, kinds, rfl, hk⟩
    next => exact (Follows.refl _).bind fun _ _ _ => .pure ⟨rfl, kinds, rfl, hk⟩

theorem joined_follows {outRow inRow : Option Int} (write : Int → Int → StoreAction Unit)
    (hb : Beside off g h) :
    Follows (Beside off)
      (match outRow, inRow with
        | some a, some b => do
          write a b
          return g
        | _, _ => return g.dangling : StoreAction Ingestion)
      (match outRow, inRow with
        | some a, some b => do
          write a b
          return h
        | _, _ => return h.dangling : StoreAction Ingestion) := by
  split
  next => exact (Follows.refl _).bind fun _ _ _ => .pure hb
  next => exact .pure ⟨hb.run, hb.known⟩

theorem edge_follows (hb : Beside off g h) (e : Edge)
    (hn : ∀ bucket, (Element.edge e).itemBucket? = some bucket → ¬ off bucket) :
    Follows (Beside off) (g.edge e) (h.edge e) := by
  cases e with
  | contains outV inVs =>
    have hd : h.known.documents.get? outV = g.known.documents.get? outV := by
      obtain ⟨kinds, report, rfl, hk⟩ := hb.opened
      rfl
    unfold edge
    dsimp only
    rw [hd]
    split
    next => exact .pure ⟨hb.run, hb.known⟩
    next document _ => exact .foldlM (fun id hr => claim_follows document id hr) inVs hb
  | next outV inV => exact next_follows outV inV hb
  | moniker outV inV =>
    obtain ⟨kinds, report, rfl, hk⟩ := hb.opened
    exact joined_follows setMoniker hb
  | packageInformation outV inV =>
    obtain ⟨kinds, report, rfl, hk⟩ := hb.opened
    exact joined_follows setPackage hb
  | bucket kind outV inV => exact bucket_follows kind outV inV hb
  | hover outV inV =>
    obtain ⟨kinds, report, rfl, hk⟩ := hb.opened
    exact joined_follows setHover hb
  | item outV inVs inV property =>
    exact .foldlM (fun id hr => item_follows outV property id (hn outV rfl) hr) _ hb
  | other => exact .pure ⟨hb.run, hb.known⟩

theorem element_follows (hb : Beside off g h) (e : Element)
    (hn : ∀ bucket, e.itemBucket? = some bucket → ¬ off bucket) :
    Follows (Beside off) (g.element e) (h.element e) := by
  cases e with
  | vertex v =>
    refine vertex_follows ?_ v
    exact ⟨hb.run, hb.known⟩
  | edge e =>
    refine edge_follows ?_ e hn
    exact ⟨hb.run, hb.known⟩

theorem line_follows (hb : Beside off g h) (number number' : Nat) {bytes : List UInt8}
    (hn : ∀ bucket, bucketOfLine? bytes = some bucket → ¬ off bucket) :
    Follows (Beside off) (g.line number bytes) (h.line number' bytes) := by
  unfold line
  dsimp only
  split
  next => exact .pure ⟨hb.run, hb.known⟩
  next ht =>
    split
    next => exact .pure ⟨hb.run, hb.known⟩
    next element he =>
      refine Follows.mapError (element_follows ?_ element fun bucket hbucket => ?_) _ _
      · exact ⟨hb.run, hb.known⟩
      · apply hn bucket
        simp only [bucketOfLine?, he, Option.bind_some, hbucket]

/-- The same lines do the same to two ingests that know the same, as long as no line asks for
what may differ. -/
theorem lines_follow (hb : Beside off g h) (number number' : Nat) {lines : List (List UInt8)}
    (hn : ∀ bytes ∈ lines, ∀ bucket, bucketOfLine? bytes = some bucket → ¬ off bucket) :
    Follows (Beside off) (g.lines number lines) (h.lines number' lines) := by
  induction lines generalizing g h number number' with
  | nil => exact .pure hb
  | cons bytes rest ih =>
    have first := line_follows hb number number' (hn bytes List.mem_cons_self)
    exact first.bind fun _ _ hr =>
      ih hr (number + 1) (number' + 1) fun line hl => hn line (List.mem_cons_of_mem _ hl)

theorem lines_append_ok_iff {g g' : Ingestion} {number : Nat} {before after : List (List UInt8)}
    {access : Access} {s t : Store} :
    g.lines number (before ++ after) access s = (.ok g', t) ↔
      ∃ mid u, g.lines number before access s = (.ok mid, u) ∧
        mid.lines (number + before.length) after access u = (.ok g', t) := by
  induction before generalizing g number s with
  | nil =>
    constructor
    · exact fun h => ⟨g, s, rfl, h⟩
    · rintro ⟨mid, u, hm, h⟩
      obtain ⟨rfl, rfl⟩ := pure_ok_iff.mp hm
      exact h
  | cons bytes rest ih =>
    have hlength : number + (bytes :: rest).length = number + 1 + rest.length := by
      rw [List.length_cons]
      omega
    rw [hlength]
    constructor
    · intro h
      obtain ⟨first, u, hf, hr⟩ := bind_ok_iff.mp h
      obtain ⟨mid, v, hm, ha⟩ := ih.mp hr
      exact ⟨mid, v, bind_ok_iff.mpr ⟨first, u, hf, hm⟩, ha⟩
    · rintro ⟨mid, v, hm, ha⟩
      obtain ⟨first, u, hf, hr⟩ := bind_ok_iff.mp hm
      exact bind_ok_iff.mpr ⟨first, u, hf, ih.mpr ⟨mid, v, hr, ha⟩⟩

end Ingestion

end SymbolAtlas
