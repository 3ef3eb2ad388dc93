import SymbolAtlas.Sql.Statement

namespace SymbolAtlas.Sql

theorem bind_eq_ok {α β ε : Type} {x : Except ε α} {f : α → Except ε β} {b : β}
    (h : x.bind f = .ok b) : ∃ a, x = .ok a ∧ f a = .ok b := by
  cases x with
  | error e => cases h
  | ok a => exact ⟨a, rfl, h⟩

namespace Parser

variable {α β : Type} {p : Parser α} {f : α → Parser β} {post : β → Prop}

theorem bind_ok_iff {r r' : Reading} {b : β} :
    (p >>= f) r = .ok (b, r') ↔ ∃ a t, p r = .ok (a, t) ∧ f a t = .ok (b, r') := by
  change (p r >>= fun x => f x.1 x.2) = .ok (b, r') ↔ _
  cases p r with
  | error e => simp [bind, Except.bind]
  | ok x =>
    obtain ⟨a, t⟩ := x
    refine ⟨fun h => ⟨a, t, rfl, h⟩, ?_⟩
    rintro ⟨a', t', he, h⟩
    cases he
    exact h

/-- Whatever the parser gives satisfies the condition. -/
def Gives (p : Parser α) (post : α → Prop) : Prop := ∀ r a r', p r = .ok (a, r') → post a

protected theorem Gives.pure {a : α} {post : α → Prop} (h : post a) : Gives (pure a) post := by
  intro r b r' hp
  cases hp
  exact h

protected theorem Gives.bind {mid : α → Prop} (hp : Gives p mid)
    (hf : ∀ a, mid a → Gives (f a) post) :
    Gives (p >>= f) post := by
  intro r b r' h
  obtain ⟨a, t, ha, hb⟩ := bind_ok_iff.mp h
  exact hf a (hp r a t ha) t b r' hb

theorem Gives.after (hf : ∀ a, Gives (f a) post) : Gives (p >>= f) post := by
  intro r b r' h
  obtain ⟨a, t, -, hb⟩ := bind_ok_iff.mp h
  exact hf a t b r' hb

protected theorem Gives.map {g : α → β} {pre : α → Prop} (hp : Gives p pre)
    (hg : ∀ a, pre a → post (g a)) :
    Gives (g <$> p) post := by
  rw [map_eq_pure_bind]
  exact hp.bind fun a ha => .pure (hg a ha)

protected theorem Gives.ite {c : Prop} [Decidable c] {q : Parser α} {post : α → Prop}
    (hp : Gives p post) (hq : Gives q post) : Gives (if c then p else q) post := by
  split
  · exact hp
  · exact hq

/-- What comes after a part that may be left out. -/
theorem Gives.afterOptional {c : Prop} [Decidable c] (hf : ∀ a, Gives (f a) post) (a : α) :
    Gives (if c then p >>= f else f a) post :=
  .ite (.after hf) (hf a)

protected theorem Gives.reject {post : α → Prop} : Gives (reject : Parser α) post := by
  intro r a r' h
  obtain ⟨t, s, -, hb⟩ := bind_ok_iff.mp h
  split at hb
  · cases hb
  · split at hb
    · cases hb
    · cases hb

end Parser

namespace Draft

open Sql.Parser

/-- The draft is of a table of the given name. -/
def IsOf (name : String) (d : Draft) : Prop := d.table.name = name

variable {name : String} {d : Draft}

theorem addColumn_isOf (h : d.IsOf name) (column type : String) :
    Gives (d.addColumn column type) (IsOf name) := by
  unfold addColumn
  split
  · exact .after fun _ => .pure h
  · split
    · exact .after fun _ => .pure h
    · exact .pure h

theorem withKey_name {t t' : TableDef} {key : KeyDef} (h : withKey t key = .ok t') :
    t'.name = t.name := by
  unfold withKey at h
  dsimp only at h
  split at h
  · cases h
    rfl
  · split at h
    · cases h
    · cases h
      rfl

theorem addKey_isOf (h : d.IsOf name) (terms : Option (List KeyTerm)) (resolution : Option String)
    (isPrimary : Bool) : Gives (d.addKey terms resolution isPrimary) (IsOf name) := by
  unfold addKey
  refine .after fun _ => .ite (.pure h) ?_
  dsimp only
  generalize hk : Except.bind _ _ = outcome
  cases outcome with
  | error fault => exact .after fun _ => .pure h
  | ok t =>
    obtain ⟨columns, -, hk⟩ := bind_eq_ok hk
    exact .pure ((withKey_name hk).trans h)

theorem makePrimary_isOf (h : d.IsOf name) (column : String) :
    Gives (d.makePrimary column) (IsOf name) := by
  unfold makePrimary
  dsimp only
  split
  · exact .after fun _ => .pure h
  · exact .pure h

theorem makeAllPrimary_isOf (h : d.IsOf name) (columns : List String) :
    Gives (d.makeAllPrimary columns) (IsOf name) := by
  induction columns generalizing d with
  | nil => exact .pure h
  | cons column columns ih => exact .bind (makePrimary_isOf h column) fun _ hd => ih hd

theorem addPrimary_isOf (h : d.IsOf name) (terms : Option (List KeyTerm)) (descends counts : Bool)
    (resolution : Option String) :
    Gives (d.addPrimary terms descends counts resolution) (IsOf name) := by
  unfold addPrimary
  split
  · exact .after fun _ => .pure h
  · have hp : Draft.IsOf name { d with table := { d.table with hasPrimary := true } } := h
    refine .bind (makeAllPrimary_isOf hp _) fun e he => .ite ?_ ?_
    · dsimp only
      split
      · exact .after fun _ => .pure he
      · exact .pure he
    · exact .ite (.after fun _ => .pure he) (addKey_isOf he _ _ _)

theorem addReference_isOf (h : d.IsOf name) (columns : Option (List String)) (table : Token)
    (targets : Option (List String)) :
    Gives (d.addReference columns table targets) (IsOf name) := by
  unfold addReference
  dsimp only
  split
  · exact .after fun _ => .pure h
  · split
    · exact .after fun _ => .pure h
    · split
      · exact .after fun _ => .pure h
      · exact .pure h

theorem addDefault_isOf (h : d.IsOf name) (value : Expr) :
    Gives (d.addDefault value) (IsOf name) := by
  unfold addDefault
  split
  · exact .after fun _ => .pure h
  · split
    · exact .after fun _ => .pure h
    · exact .pure h

theorem addGenerated_isOf (h : d.IsOf name) (value : Expr) (manner : Option String) :
    Gives (d.addGenerated value manner) (IsOf name) := by
  unfold addGenerated
  dsimp only
  split
  · exact .after fun _ => .pure h
  · refine .ite (makePrimary_isOf ?_ _) (.pure ?_)
    · exact h
    · exact h

theorem clustered_name (t : TableDef) : (clustered t).name = t.name := by
  unfold clustered
  split
  next => rfl
  next =>
    split
    next hk =>
      have hname := withKey_name hk
      exact hname
    next => rfl

theorem finish_isOf (h : d.IsOf name) (isStrict isClustered : Bool) :
    Gives (d.finish isStrict isClustered) (fun t => t.name = name) := by
  unfold finish
  dsimp only
  split
  · exact .after fun _ => .pure h
  · split
    · exact .after fun _ => .pure h
    · refine .ite (.after fun _ => .pure h) (.after fun _ => .pure ?_)
      split
      · exact (clustered_name _).trans h
      · exact h

end Draft

namespace Parser

open Draft

variable {s : Setting} {name : String} {d : Draft}

/-- The draft that is given, if any, is of a table of the given name. -/
def OptionOf (name : String) (d : Option Draft) : Prop := ∀ e ∈ d, e.IsOf name

theorem Gives.someOf {q : Parser Draft} (h : Gives q (IsOf name)) :
    Gives (some <$> q) (OptionOf name) :=
  h.map fun _ hd _ he => Option.some.inj he ▸ hd

theorem Gives.draft {e : Draft} (h : e.IsOf name) :
    Gives (pure (some e)) (OptionOf name) :=
  .pure fun _ he => Option.some.inj he ▸ h

theorem Gives.noDraft : Gives (pure none) (OptionOf name) :=
  .pure fun _ he => nomatch he

theorem columnConstraint_isOf (h : d.IsOf name) :
    Gives (columnConstraint s d) (OptionOf name) := by
  unfold columnConstraint
  refine .after fun _ => .ite (.after fun _ => .draft h) ?_
  refine .after fun _ => .ite (.after fun _ => .someOf (addDefault_isOf h _)) ?_
  refine .after fun _ => .ite (.after fun _ => .draft h) ?_
  refine .after fun _ => .ite ?_ ?_
  · refine .after fun _ => .ite (.after fun _ => .draft h) ?_
    exact .after fun _ => .after fun _ => .draft h
  refine .after fun _ => .ite (.after fun _ => .draft h) ?_
  refine .after fun _ => .ite ?_ ?_
  · refine .after fun _ => .after fun _ => ?_
    refine .ite (.after fun _ => ?_) ?_
    all_goals exact .after fun _ => .after fun _ => .someOf (addPrimary_isOf h _ _ _ _)
  refine .after fun _ => .ite (.after fun _ => .someOf (addKey_isOf h _ _ _)) ?_
  refine .after fun _ => .ite (.after fun _ => .draft h) ?_
  refine .after fun _ => .ite (.after fun _ => .someOf (addReference_isOf h _ _ _)) ?_
  refine .after fun _ => .ite (.after fun _ => .draft h) ?_
  refine .after fun generated => .afterOptional (fun _ => ?_) ()
  refine .after fun _ => .ite ?_ (.ite .reject .noDraft)
  exact .after fun _ => .someOf (addGenerated_isOf h _ _)

theorem columnConstraints_isOf (h : d.IsOf name) (fuel : Nat) :
    Gives (columnConstraints s fuel d) (IsOf name) := by
  induction fuel generalizing d with
  | zero => exact .pure h
  | succ fuel ih =>
    refine .bind (columnConstraint_isOf h) fun next hnext => ?_
    cases next with
    | none => exact .pure h
    | some e => exact ih (hnext e rfl)

theorem tableConstraint_isOf (h : d.IsOf name) :
    Gives (tableConstraint s d) (OptionOf name) := by
  unfold tableConstraint
  refine .after fun _ => .ite (.after fun _ => .draft h) ?_
  refine .after fun _ => .ite ?_ ?_
  · refine .after fun _ => .after fun _ => .after fun _ => .after fun _ => .after fun _ => ?_
    exact .after fun _ => .someOf (addPrimary_isOf h _ _ _ _)
  refine .after fun _ => .ite ?_ ?_
  · exact .after fun _ => .after fun _ => .someOf (addKey_isOf h _ _ _)
  refine .after fun _ => .ite (.after fun _ => .after fun _ => .draft h) ?_
  refine .after fun _ => .ite ?_ .noDraft
  refine .after fun _ => .after fun _ => .after fun _ => .after fun _ => .after fun _ => ?_
  exact .after fun _ => .afterOptional (fun _ => .someOf (addReference_isOf h _ _ _)) ()

theorem tableConstraints_isOf (h : d.IsOf name) (fuel : Nat) :
    Gives (tableConstraints s fuel d) (IsOf name) := by
  induction fuel generalizing d with
  | zero => exact .pure h
  | succ fuel ih =>
    refine .bind (tableConstraint_isOf h) fun next hnext => ?_
    cases next with
    | none => exact .reject
    | some e =>
      have he : e.IsOf name := hnext e rfl
      exact .after fun _ => .after fun _ => .ite (ih he) (.ite (ih he) (.pure he))

theorem tableBody_isOf (h : d.IsOf name) (fuel : Nat) :
    Gives (tableBody s fuel d) (IsOf name) := by
  induction fuel generalizing d with
  | zero => exact .pure h
  | succ fuel ih =>
    refine .after fun _ => .after fun _ => .bind (addColumn_isOf h _ _) fun _ hcolumn => ?_
    refine .after fun _ => .bind (columnConstraints_isOf hcolumn _) fun _ hlast => ?_
    refine .after fun _ => .ite (.after fun _ => .ite ?_ (ih hlast)) (.pure hlast)
    exact tableConstraints_isOf hlast fuel

section Pending

variable {r r' : Reading} {expected : Token → Bool} {b : Bool}

/-- Reading does not go on while something is pending. -/
theorem advance_pending {t : Token} (h : advance r = .ok (t, r')) : r.pending = none := by
  obtain ⟨r₁, r₂, hget, h⟩ := bind_ok_iff.mp h
  cases hget
  cases hp : r.pending with
  | none => rfl
  | some complaint =>
    rw [hp] at h
    cases h

theorem takeIf_ok (h : takeIf expected r = .ok (b, r')) :
    expected (r.tokens.headD ending) = true ∧ r.pending = none ∨ b = false ∧ r' = r := by
  obtain ⟨t, r₁, hat, h⟩ := bind_ok_iff.mp h
  cases hat
  split at h
  next hexpected =>
    obtain ⟨t, r₂, ht, -⟩ := bind_ok_iff.mp h
    exact .inl ⟨hexpected, advance_pending ht⟩
  next =>
    cases h
    exact .inr ⟨rfl, rfl⟩

theorem not_reject {α : Type} {a : α} : reject r ≠ .ok (a, r') := by
  intro h
  have hnone : Gives (reject : Parser α) fun _ => False := .reject
  exact hnone r a r' h

theorem expect_ok (h : expect expected r = .ok ((), r')) :
    expected (r.tokens.headD ending) = true ∧ r.pending = none := by
  obtain ⟨b, r₁, htake, h⟩ := bind_ok_iff.mp h
  obtain htaken | ⟨rfl, -⟩ := takeIf_ok htake
  · exact htaken
  · exact absurd h not_reject

end Pending

namespace Heading

/-- The definition is of what the heading says, under the name that it says. -/
inductive Makes : Heading → Definition → Prop where
  | table {m : Manner} {t : Token} {d : TableDef} (hn : d.name = t.label) :
      Makes (.table m t) (.relation (.table d))
  | view {m : Manner} {t : Token} {d : ViewDef} (hn : d.name = t.label) :
      Makes (.view m t) (.relation (.view d))
  | virtualTable {m : Manner} {t : Token} {d : VirtualDef} (hn : d.name = t.label) :
      Makes (.virtualTable m t) (.relation (.virtualTable d))
  | index {m : Manner} {t : Token} {isUnique : Bool} {table : String} {key : Option KeyDef} :
      Makes (.index m t isUnique) (.index t.label table key)
  | trigger {head : TriggerHead} {d : TriggerDef} (hn : d.name = head.name.label)
      (ht : d.table = head.table) : Makes (.trigger head) (.trigger d)

def isFree (c : Catalog) : Heading → Bool
  | .table _ t | .view _ t | .virtualTable _ t | .index _ t _ =>
    !c.hasRelation t.label && !c.hasIndex t.label
  | .trigger head => c.hasRelation head.table && !c.hasTrigger head.name.label

def isThere (c : Catalog) : Heading → Bool
  | .table _ t | .view _ t | .virtualTable _ t => c.hasRelation t.label
  | .index _ t _ => c.hasIndex t.label
  | .trigger head => c.hasRelation head.table && c.hasTrigger head.name.label

/-- What a heading leads to: something new, or nothing where it is there already. -/
inductive Leads (c : Catalog) (h : Heading) : Definition → Prop where
  | new {d : Definition} (hm : h.Makes d) (hf : h.isFree c = true) : Leads c h d
  | old (ht : h.isThere c = true) : Leads c h .nothing

/-- What it means for what follows a heading whether something is to be created. -/
def Decides (c : Catalog) (h : Heading) (isLive : Bool) (r : Reading) : Prop :=
  if isLive then h.isFree c = true else r.pending = none → h.isThere c = true

variable {c : Catalog} {h : Heading} {isLive : Bool} {r : Reading} {definition : Definition}

theorem Decides.leads (hd : h.Decides c isLive r) (hp : r.pending = none)
    (hm : if isLive then h.Makes definition else definition = .nothing) : h.Leads c definition := by
  cases isLive with
  | true => exact .new hm hd
  | false =>
    cases hm
    exact .old (hd hp)

end Heading

section Start

variable {r r' : Reading} {isLive : Bool} {m : Manner} {t : Token}

/-- What is refused is complained about later. -/
theorem refuse_ok {α : Type} {a b : α} {message : String}
    (h : (object message none >>= fun _ => pure a) r = .ok (b, r')) :
    b = a ∧ r'.pending ≠ none := by
  cases h
  exact ⟨rfl, Option.some_ne_none _⟩

theorem decides_of_refuse {c : Catalog} {head : Heading} {message : String}
    (h : (object message none >>= fun _ => pure false) r = .ok (isLive, r')) :
    head.Decides c isLive r' := by
  obtain ⟨rfl, hp⟩ := refuse_ok h
  exact fun hnone => absurd hnone hp

theorem not_misplaced (he : s.entry = none) (kind name table : String) :
    s.isMisplaced kind name table = false := by
  unfold Setting.isMisplaced
  rw [he]

theorem startRelation_decides (he : s.entry = none) {kind : String}
    (h : startRelation s m kind t r = .ok (isLive, r')) :
    (Heading.table m t).Decides s.catalog isLive r' := by
  unfold startRelation at h
  simp only [he, not_misplaced he, Option.map_none, Option.getD_none, Bool.false_eq_true,
    ↓reduceIte, Option.isSome_none, Bool.false_and] at h
  cases hr : s.catalog.relation? t.label with
  | some relation =>
    have hthere : s.catalog.hasRelation t.label = true := by simp [Catalog.hasRelation, hr]
    rw [hr] at h
    dsimp only at h
    split at h
    next => exact decides_of_refuse h
    next =>
      cases h
      exact fun _ => hthere
  | none =>
    have hmissing : s.catalog.hasRelation t.label = false := by simp [Catalog.hasRelation, hr]
    rw [hr] at h
    dsimp only at h
    split at h
    next => exact decides_of_refuse h
    next hi =>
      cases h
      simp [Heading.Decides, Heading.isFree, hmissing, hi]

theorem startIndex_decides (he : s.entry = none) {table : String} {terms : List KeyTerm}
    {isUnique : Bool} {on : Option TableDef}
    (h : startIndex s m t.label table terms r = .ok (on, r')) :
    (Heading.index m t isUnique).Decides s.catalog on.isSome r' := by
  have hrefused : ∀ {message : String},
      (object message none >>= fun _ => pure (none : Option TableDef)) r = .ok (on, r') →
        (Heading.index m t isUnique).Decides s.catalog on.isSome r' := by
    intro message h
    obtain ⟨rfl, hp⟩ := refuse_ok h
    exact fun hnone => absurd hnone hp
  unfold startIndex at h
  simp only [he, not_misplaced he, Option.isSome_none, Bool.false_and, Bool.false_eq_true,
    ↓reduceIte, Option.isNone_none, Bool.true_and] at h
  cases hn : nullsFault? terms with
  | some fault =>
    rw [hn] at h
    exact hrefused h
  | none =>
    rw [hn] at h
    dsimp only at h
    rcases hr : s.catalog.relation? table with _ | on | view | virtual <;> rw [hr] at h
    case none | some.view | some.virtualTable => exact hrefused h
    case some.table =>
      dsimp only at h
      split at h
      next => exact hrefused h
      next hrelation =>
        split at h
        next hindex =>
          split at h
          next =>
            cases h
            exact fun _ => hindex
          next => exact hrefused h
        next hindex =>
          cases h
          simp [Heading.Decides, Heading.isFree, hrelation, hindex]

theorem startTrigger_decides (he : s.entry = none) {head : TriggerHead}
    (h : startTrigger s head.manner head.name head.table head.time r = .ok (isLive, r')) :
    (Heading.trigger head).Decides s.catalog isLive r' := by
  unfold startTrigger at h
  simp only [he, not_misplaced he, Option.isSome_none, Bool.false_and, Bool.false_eq_true,
    ↓reduceIte] at h
  cases hr : s.catalog.relation? head.table with
  | none =>
    rw [hr] at h
    exact decides_of_refuse h
  | some relation =>
    have hthere : s.catalog.hasRelation head.table = true := by simp [Catalog.hasRelation, hr]
    rw [hr] at h
    cases relation with
    | virtualTable _ => exact decides_of_refuse h
    | table _ | view _ =>
      dsimp only at h
      split at h
      next htrigger =>
        split at h
        next =>
          cases h
          simp [Heading.Decides, Heading.isThere, hthere, htrigger]
        next => exact decides_of_refuse h
      next htrigger =>
        split at h
        next => exact decides_of_refuse h
        next =>
          generalize timeFault? _ head.time head.table = fault at h
          cases fault with
          | some _ => exact decides_of_refuse h
          | none =>
            cases h
            simp [Heading.Decides, Heading.isFree, hthere, htrigger]

end Start

section Create

variable {r r' : Reading} {m : Manner} {t : Token} {definition : Definition}

theorem tableFrom_gives (isLive : Bool) :
    Gives (tableFrom s t isLive) fun definition =>
      if isLive then (Heading.table m t).Makes definition else definition = .nothing := by
  have hname : IsOf t.label { table := { name := t.label }, isLive } := rfl
  refine .after fun _ => .bind (tableBody_isOf hname _) fun d hd => ?_
  refine .after fun _ => .after fun _ => ?_
  cases isLive with
  | true => exact .bind (finish_isOf hd _ _) fun _ hn => .pure (.table hn)
  | false => exact .pure rfl

theorem createTable_leads (he : s.entry = none) (h : createTable s m t r = .ok (definition, r'))
    (hp : r'.pending = none) : (Heading.table m t).Leads s.catalog definition := by
  obtain ⟨isLive, r₁, hstart, h⟩ := bind_ok_iff.mp h
  have hlive := startRelation_decides he hstart
  obtain ⟨isCopy, r₂, hcopy, h⟩ := bind_ok_iff.mp h
  have hcopied := takeIf_ok hcopy
  cases isCopy with
  | true =>
    have hp₁ : r₁.pending = none := by
      obtain ⟨-, hp₁⟩ | ⟨hfalse, -⟩ := hcopied
      · exact hp₁
      · cases hfalse
    refine hlive.leads hp₁ ?_
    obtain ⟨_, r₃, -, h⟩ := bind_ok_iff.mp h
    cases isLive with
    | true =>
      cases h
      cases hp
    | false =>
      cases h
      rfl
  | false =>
    obtain ⟨_, r₃, hmark, h⟩ := bind_ok_iff.mp h
    have hp₁ : r₁.pending = none := by
      obtain ⟨-, hp₁⟩ | ⟨-, rfl⟩ := hcopied
      · exact hp₁
      · exact (expect_ok hmark).2
    exact hlive.leads hp₁ (tableFrom_gives isLive r₃ definition r' h)

theorem viewOf_gives (listed : Option (List String)) (single : Option Selection) :
    Gives (viewOf s t listed single) (Heading.view m t).Makes := by
  refine .after fun other => ?_
  cases other with
  | some database => exact .after fun _ => .after fun _ => .pure (.view rfl)
  | none =>
    dsimp only
    refine .ite (.after fun _ => ?_) ?_
    all_goals exact .after fun _ => .pure (.view rfl)

theorem createView_leads (he : s.entry = none) (h : createView s m t r = .ok (definition, r'))
    (hp : r'.pending = none) : (Heading.view m t).Leads s.catalog definition := by
  obtain ⟨listed, r₁, -, h⟩ := bind_ok_iff.mp h
  obtain ⟨_, r₂, -, h⟩ := bind_ok_iff.mp h
  obtain ⟨single, r₃, -, h⟩ := bind_ok_iff.mp h
  obtain ⟨reading, r₄, -, h⟩ := bind_ok_iff.mp h
  split at h
  next =>
    cases h
    cases hp
  next =>
    obtain ⟨isLive, r₅, hstart, h⟩ := bind_ok_iff.mp h
    have hlive := startRelation_decides he hstart
    cases isLive with
    | true => exact .new (viewOf_gives listed single r₅ definition r' h) hlive
    | false =>
      cases h
      exact .old (hlive hp)

theorem virtualArguments_pending {arguments : List (List Token)}
    (h : virtualArguments r = .ok (arguments, r')) : r.pending = none ∨ r' = r := by
  obtain ⟨isListed, r₁, hmark, hrest⟩ := bind_ok_iff.mp h
  obtain ⟨-, hp⟩ | ⟨rfl, rfl⟩ := takeIf_ok hmark
  · exact .inl hp
  · cases hrest
    exact .inr rfl

theorem createVirtual_leads (he : s.entry = none)
    (h : createVirtual s m t r = .ok (definition, r')) (hp : r'.pending = none) :
    (Heading.virtualTable m t).Leads s.catalog definition := by
  obtain ⟨_, r₁, -, h⟩ := bind_ok_iff.mp h
  obtain ⟨engine, r₂, -, h⟩ := bind_ok_iff.mp h
  obtain ⟨isLive, r₃, hstart, h⟩ := bind_ok_iff.mp h
  have hlive := startRelation_decides he hstart
  obtain ⟨arguments, r₄, harguments, h⟩ := bind_ok_iff.mp h
  cases isLive with
  | true =>
    cases h
    exact .new (.virtualTable rfl) hlive
  | false =>
    cases h
    refine .old (hlive ?_)
    obtain hp₃ | rfl := virtualArguments_pending harguments
    · exact hp₃
    · exact hp

theorem indexOf_gives {isUnique : Bool} (on : TableDef) (terms : List KeyTerm)
    (condition : Option Expr) :
    Gives (indexOf s t isUnique on terms condition) (Heading.index m t isUnique).Makes := by
  unfold indexOf
  generalize Option.bind condition _ = fault
  have hindex : ∀ (c : Bool) {key}, Gives (if c then do
      object "invalid rootpage" none
      pure (.index t.label on.name key) else pure (.index t.label on.name key))
      (Heading.index m t isUnique).Makes :=
    fun _ _ => .ite (.after fun _ => .pure .index) (.pure .index)
  cases fault with
  | some _ => exact .after fun _ => .after fun _ => .after fun _ => hindex _
  | none => exact .after fun _ => .after fun _ => hindex _

theorem createIndex_leads (he : s.entry = none) {isUnique : Bool}
    (h : createIndex s m t isUnique r = .ok (definition, r')) (hp : r'.pending = none) :
    (Heading.index m t isUnique).Leads s.catalog definition := by
  obtain ⟨_, r₁, -, h⟩ := bind_ok_iff.mp h
  obtain ⟨table, r₂, -, h⟩ := bind_ok_iff.mp h
  obtain ⟨terms, r₃, -, h⟩ := bind_ok_iff.mp h
  obtain ⟨condition, r₄, -, h⟩ := bind_ok_iff.mp h
  obtain ⟨on, r₅, hstart, h⟩ := bind_ok_iff.mp h
  have hlive : (Heading.index m t isUnique).Decides s.catalog on.isSome r₅ :=
    startIndex_decides he hstart
  cases on with
  | none =>
    cases h
    exact .old (hlive hp)
  | some on => exact .new (indexOf_gives on terms condition r₅ definition r' h) hlive

theorem triggerOf_gives {head : TriggerHead} (condition : Option Expr) (steps : List TriggerStep) :
    Gives (triggerOf head condition steps) (Heading.trigger head).Makes := by
  refine .after fun other => ?_
  cases other with
  | some database => exact .after fun _ => .pure (.trigger rfl rfl)
  | none => exact .pure (.trigger rfl rfl)

theorem createTrigger_leads (he : s.entry = none) {head : TriggerHead}
    (h : createTrigger s head r = .ok (definition, r')) :
    (Heading.trigger head).Leads s.catalog definition := by
  obtain ⟨condition, r₁, -, h⟩ := bind_ok_iff.mp h
  obtain ⟨isLive, r₂, hstart, h⟩ := bind_ok_iff.mp h
  have hlive := startTrigger_decides he hstart
  obtain ⟨_, r₃, hbegin, h⟩ := bind_ok_iff.mp h
  have hp₂ : r₂.pending = none := (expect_ok hbegin).2
  obtain ⟨_, r₄, -, h⟩ := bind_ok_iff.mp h
  obtain ⟨steps, r₅, -, h⟩ := bind_ok_iff.mp h
  refine hlive.leads hp₂ ?_
  cases isLive with
  | true => exact triggerOf_gives condition steps r₅ definition r' h
  | false =>
    cases h
    rfl

theorem creation_leads (he : s.entry = none) (h : creation s r = .ok (definition, r'))
    (hp : r'.pending = none) :
    ∃ head r₁, heading r = .ok (head, r₁) ∧ head.Leads s.catalog definition := by
  obtain ⟨head, r₁, hhead, h⟩ := bind_ok_iff.mp h
  refine ⟨head, r₁, hhead, ?_⟩
  cases head with
  | table m t => exact createTable_leads he h hp
  | view m t => exact createView_leads he h hp
  | virtualTable m t => exact createVirtual_leads he h hp
  | index m t isUnique => exact createIndex_leads he h hp
  | trigger head => exact createTrigger_leads he h

end Create

end Parser

/-- What the statement at the front of a text is to create. -/
def heading? (text : String) : Option Parser.Heading :=
  match Parser.heading { tokens := tokens text } with
  | .ok (head, _) => some head
  | .error _ => none

/-- A statement that can be carried out creates what its heading says, or finds it there. -/
theorem Setting.leads_of_read {s : Setting} {definition : Definition} (he : s.entry = none)
    (h : s.read = .ok definition) :
    ∃ head, heading? s.text = some head ∧ head.Leads s.catalog definition := by
  unfold read at h
  obtain ⟨⟨found, r⟩, hrun, h⟩ := bind_eq_ok h
  cases h
  obtain ⟨found, r₁, hcreation, hrun⟩ := Parser.bind_ok_iff.mp hrun
  obtain ⟨_, r₂, hmark, hrun⟩ := Parser.bind_ok_iff.mp hrun
  cases hrun
  have hp : r₁.pending = none := (Parser.expect_ok hmark).2
  obtain ⟨head, r₃, hhead, hleads⟩ := Parser.creation_leads he hcreation hp
  exact ⟨head, by rw [heading?, hhead], hleads⟩

end SymbolAtlas.Sql
