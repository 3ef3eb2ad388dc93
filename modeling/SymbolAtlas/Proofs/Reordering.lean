import SymbolAtlas.Proofs.Coverage
import SymbolAtlas.Proofs.Indifference
import SymbolAtlas.Session

namespace SymbolAtlas

/-- The lists differ only in which of two parts comes first. -/
def Exchange {α : Type} (a b xs ys : List α) : Prop :=
  ∃ front back, xs = front ++ (a ++ b) ++ back ∧ ys = front ++ (b ++ a) ++ back

namespace Exchange

variable {α β : Type} {a b xs ys : List α}

theorem symm (h : Exchange a b xs ys) : Exchange b a ys xs := by
  obtain ⟨front, back, hx, hy⟩ := h
  exact ⟨front, back, hy, hx⟩

theorem map (h : Exchange a b xs ys) (f : α → β) :
    Exchange (a.map f) (b.map f) (xs.map f) (ys.map f) := by
  obtain ⟨front, back, rfl, rfl⟩ := h
  exact ⟨front.map f, back.map f, by simp, by simp⟩

theorem flatMap (h : Exchange a b xs ys) (f : α → List β) :
    Exchange (a.flatMap f) (b.flatMap f) (xs.flatMap f) (ys.flatMap f) := by
  obtain ⟨front, back, rfl, rfl⟩ := h
  exact ⟨front.flatMap f, back.flatMap f, by simp, by simp⟩

theorem isEmpty (h : Exchange a b xs ys) : xs.isEmpty = ys.isEmpty := by
  obtain ⟨front, back, rfl, rfl⟩ := h
  rw [Bool.eq_iff_iff]
  simp only [List.isEmpty_iff, List.append_eq_nil_iff, and_comm (a := a = [])]

/-- The same comes first in both lists, unless each of the parts has something of its own to
offer. -/
theorem find? (h : Exchange a b xs ys) (p : α → Bool) :
    xs.find? p = ys.find? p ∨
      ∃ x ∈ a, ∃ y ∈ b, xs.find? p = some x ∧ ys.find? p = some y := by
  obtain ⟨front, back, rfl, rfl⟩ := h
  simp only [List.find?_append]
  cases front.find? p with
  | some first => exact .inl rfl
  | none =>
    cases ha : a.find? p with
    | none => exact .inl (by simp)
    | some x =>
      cases hb : b.find? p with
      | none => exact .inl rfl
      | some y =>
        exact .inr ⟨x, List.mem_of_find?_eq_some ha, y, List.mem_of_find?_eq_some hb, rfl, rfl⟩

end Exchange

/-- The items that an edge adds for a pass, with the roles that they give. -/
def Ingestion.passItemsOf (g : Ingestion) (e : Edge) : Pass → List (Item × Role)
  | .definitions => (g.definitionsOf e).map fun item => (item, .definition)
  | pass => (g.referencesOf e).map fun r => (r.toItem, pass.referenceRole r.isDefinition)

/-- A range that both edges put among the references, and only one as a definition. -/
def Ingestion.Disputed (g : Ingestion) (e f : Edge) (range : Int) : Prop :=
  ∃ r ∈ g.referencesOf e, ∃ r' ∈ g.referencesOf f,
    r.range = range ∧ r'.range = range ∧ r.isDefinition ≠ r'.isDefinition

theorem Ingestion.Disputed.symm {g : Ingestion} {e f : Edge} {range : Int}
    (h : g.Disputed e f range) : g.Disputed f e range := by
  obtain ⟨r, hr, r', hr', hrange, hrange', hne⟩ := h
  exact ⟨r', hr', r, hr, hrange', hrange, hne.symm⟩

def Role.Opposed (a b : Role) : Prop :=
  a = .definition ∧ b = .reference ∨ a = .reference ∧ b = .definition

theorem Pass.opposed_referenceRole {a b : Bool} (h : a ≠ b) :
    Role.Opposed (references.referenceRole a) (references.referenceRole b) := by
  cases a with
  | true =>
    cases b with
    | true => exact absurd rfl h
    | false => exact .inl ⟨rfl, rfl⟩
  | false =>
    cases b with
    | true => exact .inr ⟨rfl, rfl⟩
    | false => exact absurd rfl h

namespace Store

variable {s t : Store} {g : Ingestion} {e f : Edge} {run : Int}

/-- The stores differ only in which of two edges added its items first. -/
structure Exchanged (g : Ingestion) (e f : Edge) (s t : Store) : Prop where
  same : t = s.withItems t.definitionItems t.referenceItems
  definitions : Exchange (g.definitionsOf e) (g.definitionsOf f)
    (s.definitionItems.rows.map Prod.snd) (t.definitionItems.rows.map Prod.snd)
  references : Exchange (g.referencesOf e) (g.referencesOf f)
    (s.referenceItems.rows.map Prod.snd) (t.referenceItems.rows.map Prod.snd)

def reached (s : Store) (run : Int) (pass : Pass) (p : Item × Role) : List Occurrence :=
  if p.1.run = run then
    (s.symbolsOfItem pass.bucketKind p.1).map fun symbol =>
      ⟨p.1.run, symbol, p.1.document, p.1.range, p.2⟩
  else []

theorem reached_item {pass : Pass} {p : Item × Role} {o : Occurrence}
    (ho : o ∈ s.reached run pass p) : o.range = p.1.range ∧ o.role = p.2 := by
  unfold reached at ho
  split at ho
  next =>
    obtain ⟨symbol, -, rfl⟩ := List.mem_map.mp ho
    exact ⟨rfl, rfl⟩
  next => cases ho

theorem mem_derived_iff {o : Occurrence} :
    o ∈ (s.derived run).occurrences ↔ o ∈ s.occurrences ∨
      s.occurrences.any o.samePlace = false ∧ (s.foundIn run).find? o.samePlace = some o := by
  rw [derived_eq]
  exact mem_foldl_addOccurrence_iff

/-- Every occurrence of one store is one of the other.  Only where `disputed` holds may it be a
definition in one and a reference in the other. -/
def AgreesBut (disputed : Int → Prop) (s t : Store) : Prop :=
  ∀ o ∈ s.occurrences, o ∈ t.occurrences ∨
    disputed o.range ∧ ∃ role, o.role.Opposed role ∧ { o with role := role } ∈ t.occurrences

namespace Exchanged

theorem symm (h : Exchanged g e f s t) : Exchanged g f e t s where
  same := by
    rw [h.same]
    rfl
  definitions := h.definitions.symm
  references := h.references.symm

theorem occurrences (h : Exchanged g e f s t) : t.occurrences = s.occurrences := by
  rw [h.same]
  rfl

theorem passItems (h : Exchanged g e f s t) (pass : Pass) :
    Exchange (g.passItemsOf e pass) (g.passItemsOf f pass) (s.passItems pass)
      (t.passItems pass) := by
  have hd := h.definitions.map fun item => (item, Role.definition)
  have hr := h.references.map fun r => (r.toItem, pass.referenceRole r.isDefinition)
  rw [List.map_map, List.map_map] at hd hr
  cases pass with
  | definitions => exact hd
  | _ => exact hr

theorem found (h : Exchanged g e f s t) (run : Int) (pass : Pass) :
    Exchange ((g.passItemsOf e pass).flatMap (s.reached run pass))
      ((g.passItemsOf f pass).flatMap (s.reached run pass)) (s.found run pass)
      (t.found run pass) := by
  have hreached : t.reached run pass = s.reached run pass := by
    rw [h.same]
    rfl
  have hfound := (h.passItems pass).flatMap (s.reached run pass)
  nth_rewrite 4 [← hreached] at hfound
  exact hfound

theorem find?_found (h : Exchanged g e f s t) (run : Int) (pass : Pass) (hp : pass ≠ .references)
    (o : Occurrence) :
    (s.found run pass).find? o.samePlace = (t.found run pass).find? o.samePlace := by
  rcases (h.found run pass).find? o.samePlace with he | ⟨x, -, y, -, hx, hy⟩
  · exact he
  · obtain ⟨isDefinition, hrole⟩ := found_role (List.mem_of_find?_eq_some hx)
    obtain ⟨isDefinition', hrole'⟩ := found_role (List.mem_of_find?_eq_some hy)
    have hsame : x.role = y.role := by
      rw [hrole, hrole']
      cases pass with
      | references => exact absurd rfl hp
      | _ => rfl
    rw [hx, hy, Occurrence.samePlace_iff.mp (List.find?_some hx),
      Occurrence.samePlace_iff.mp (List.find?_some hy), hsame]

theorem find?_references (h : Exchanged g e f s t) (run : Int) (o : Occurrence) :
    (s.found run .references).find? o.samePlace = (t.found run .references).find? o.samePlace ∨
      g.Disputed e f o.range ∧ ∃ a b, Role.Opposed a b ∧
        (s.found run .references).find? o.samePlace = some { o with role := a } ∧
        (t.found run .references).find? o.samePlace = some { o with role := b } := by
  rcases (h.found run .references).find? o.samePlace with he | ⟨x, hx, y, hy, hs, ht⟩
  · exact .inl he
  · obtain ⟨p, hp, hx⟩ := List.mem_flatMap.mp hx
    obtain ⟨q, hq, hy⟩ := List.mem_flatMap.mp hy
    obtain ⟨r, hr, rfl⟩ := List.mem_map.mp hp
    obtain ⟨r', hr', rfl⟩ := List.mem_map.mp hq
    obtain ⟨hrange, hrole⟩ := reached_item hx
    obtain ⟨hrange', hrole'⟩ := reached_item hy
    have hxo := Occurrence.samePlace_iff.mp (List.find?_some hs)
    have hyo := Occurrence.samePlace_iff.mp (List.find?_some ht)
    by_cases hflag : r.isDefinition = r'.isDefinition
    · have hsame : x.role = y.role := by rw [hrole, hrole', hflag]
      refine .inl ?_
      rw [hs, ht, hxo, hyo, hsame]
    · have hopposed : Role.Opposed x.role y.role := by
        rw [hrole, hrole']
        exact Pass.opposed_referenceRole hflag
      rw [hxo] at hrange
      rw [hyo] at hrange'
      rw [hxo] at hs
      rw [hyo] at ht
      exact .inr ⟨⟨r, hr, r', hr', hrange.symm, hrange'.symm, hflag⟩, _, _, hopposed, hs, ht⟩

theorem find?_foundIn (h : Exchanged g e f s t) (run : Int) (o : Occurrence) :
    (s.foundIn run).find? o.samePlace = (t.foundIn run).find? o.samePlace ∨
      g.Disputed e f o.range ∧ ∃ a b, Role.Opposed a b ∧
        (s.foundIn run).find? o.samePlace = some { o with role := a } ∧
        (t.foundIn run).find? o.samePlace = some { o with role := b } := by
  simp only [foundIn, List.find?_append, ← h.find?_found run .definitions (by decide),
    ← h.find?_found run .implementations (by decide),
    ← h.find?_found run .types (by decide)]
  -- Only the pass over references can differ, and only if the first one has found nothing.
  cases (s.found run .definitions).find? o.samePlace with
  | some first => exact .inl rfl
  | none =>
    rcases h.find?_references run o with he | ⟨hd, a, b, hopposed, hs, ht⟩
    · rw [he]
      exact .inl rfl
    · rw [hs, ht]
      exact .inr ⟨hd, a, b, hopposed, rfl, rfl⟩

/-- Derived occurrences agree but for the ranges in dispute. -/
theorem agrees (h : Exchanged g e f s t) (run : Int) :
    AgreesBut (g.Disputed e f) (s.derived run) (t.derived run) := by
  intro o ho
  have mem {q : Occurrence} (hq : q ∈ s.occurrences ∨ s.occurrences.any q.samePlace = false ∧
      (t.foundIn run).find? q.samePlace = some q) : q ∈ (t.derived run).occurrences := by
    rw [← h.occurrences] at hq
    exact mem_derived_iff.mpr hq
  rcases mem_derived_iff.mp ho with hold | ⟨hfree, hfirst⟩
  · exact .inl (mem (.inl hold))
  · rcases h.find?_foundIn run o with he | ⟨hd, a, b, hopposed, hs, ht⟩
    · rw [he] at hfirst
      exact .inl (mem (.inr ⟨hfree, hfirst⟩))
    · have hrole : o.role = a := by
        rw [hfirst, Option.some.injEq] at hs
        rw [hs]
      exact .inr ⟨hd, b, hrole ▸ hopposed, mem (.inr ⟨hfree, ht⟩)⟩

end Exchanged

end Store

section Derivation

variable {access : Access} {s t u : Store} {run : Int}

theorem found_withPass (s : Store) (run : Int) (pass other : Pass) :
    (s.withPass run pass).found run other = s.found run other := by
  cases other <;> rfl

theorem derivePass_steady (steady : access.Steady) {pass : Pass} {count : Nat}
    (hempty : ∀ other, (s.found run other).isEmpty = (t.found run other).isEmpty)
    (h : derivePass run pass access s = (.ok count, u)) :
    ∃ count' v, derivePass run pass access t = (.ok count', v) ∧
      ∀ other, (u.found run other).isEmpty = (v.found run other).isEmpty := by
  obtain ⟨ha, -, rfl⟩ := derivePass_ok_iff.mp h
  rw [hempty] at ha
  refine ⟨_, _, derivePass_ok_iff.mpr ⟨steady.allows ha, rfl, rfl⟩, fun other => ?_⟩
  rw [found_withPass, found_withPass]
  exact hempty other

theorem fillOccurrences_steady (steady : access.Steady) {counts : DerivationCounts}
    (hempty : ∀ pass, (s.found run pass).isEmpty = (t.found run pass).isEmpty)
    (h : fillOccurrences run access s = (.ok counts, u)) :
    ∃ counts' v, fillOccurrences run access t = (.ok counts', v) := by
  obtain ⟨u₁, u₂, u₃, h₁, h₂, h₃, h₄⟩ := fillOccurrences_passes h
  obtain ⟨c₁, v₁, d₁, hempty⟩ := derivePass_steady steady hempty h₁
  obtain ⟨c₂, v₂, d₂, hempty⟩ := derivePass_steady steady hempty h₂
  obtain ⟨c₃, v₃, d₃, hempty⟩ := derivePass_steady steady hempty h₃
  obtain ⟨c₄, v₄, d₄, -⟩ := derivePass_steady steady hempty h₄
  refine ⟨⟨c₁, c₂, c₃, c₄⟩, v₄, ?_⟩
  refine Action.bind_ok_iff.mpr ⟨c₁, v₁, d₁, Action.bind_ok_iff.mpr ⟨c₂, v₂, d₂, ?_⟩⟩
  exact Action.bind_ok_iff.mpr ⟨c₃, v₃, d₃, Action.bind_ok_iff.mpr ⟨c₄, v₄, d₄, rfl⟩⟩

theorem derivation_exchanged (steady : access.Steady) {g : Ingestion} {e f : Edge}
    (h : Store.Exchanged g e f s t) {counts : DerivationCounts}
    (hd : derivation false run access s = (.ok counts, u)) :
    ∃ counts', derivation false run access t = (.ok counts', t.derived run) := by
  obtain ⟨hb, hfill, hc⟩ := Action.transaction_ok_iff.mp hd
  obtain ⟨counts', v, hfill'⟩ := fillOccurrences_steady steady.inTransaction
    (fun pass => (h.found run pass).isEmpty) hfill
  rw [fillOccurrences_store hfill']
  rw [steady.commitFails u v] at hc
  have hd' : derivation false run access t = (.ok counts', v) :=
    Action.transaction_ok_iff.mpr ⟨hb, hfill', hc⟩
  exact ⟨counts', hd'⟩

end Derivation

section Lines

variable {access : Access} {s u u' : Store} {e f : Edge} {bytes : List UInt8}

theorem Ingestion.line_elsewhere {g g' h : Ingestion} {number : Nat} (steady : access.Steady)
    (he : edgeOfLine? bytes = some e) (hi : e.isItem = true)
    (hline : g.line number bytes access u = (.ok g', u')) (hrun : h.run = g.run)
    (hknown : h.known = g.known) (number' : Nat) (d : Table Item) (r : Table ReferenceItem) :
    ∃ h' : Ingestion, h.line number' bytes access (u.withItems d r) =
        (.ok h', (u.withItems d r).withItemsOf g e) ∧ h'.run = g.run ∧ h'.known = g.known := by
  obtain ⟨definitions, references, hall⟩ := line_indifferent steady g number bytes u g' u' hline
  have hbeside : Beside (fun _ => False) g h := ⟨hrun, hknown ▸ .refl _ _⟩
  obtain ⟨h', hline', -⟩ :=
    line_follows hbeside number number' (fun _ _ => id) _ _ _ _ (hall d r)
  obtain ⟨hrun', hknown', hstore⟩ := Stage.line_items he hi ⟨h, u.withItems d r⟩
  obtain ⟨hd, hr⟩ := itemsOf_edge_congr hrun hknown e
  unfold Store.withItemsOf at hstore
  rw [hd, hr] at hstore
  rw [line_stage hline'] at hrun' hknown' hstore
  exact ⟨h', hline'.trans (congrArg _ hstore), hrun'.trans hrun, hknown'.trans hknown⟩

theorem Ingestion.lines_elsewhere {g g' h : Ingestion} {number : Nat}
    {lines : List (List UInt8)} (steady : access.Steady)
    (hlines : g.lines number lines access u = (.ok g', u')) (hrun : h.run = g.run)
    (hknown : h.known = g.known) :
    ∃ definitions references, u'.definitionItems = u.definitionItems.insertAll definitions ∧
      u'.referenceItems = u.referenceItems.insertAll references ∧
      ∀ d r, ∃ h' : Ingestion, h.lines number lines access (u.withItems d r) =
        (.ok h', u'.withItems (d.insertAll definitions) (r.insertAll references)) := by
  obtain ⟨definitions, references, hall⟩ :=
    lines_indifferent steady g number lines u g' u' hlines
  have hown := hlines.symm.trans (hall u.definitionItems u.referenceItems)
  have hstore := congrArg Prod.snd hown
  refine ⟨definitions, references, congrArg Store.definitionItems hstore,
    congrArg Store.referenceItems hstore, fun d r => ?_⟩
  have hbeside : Beside (fun _ => False) g h := ⟨hrun, hknown ▸ .refl _ _⟩
  obtain ⟨h', hlines', -⟩ :=
    lines_follow hbeside number number (fun _ _ _ _ => id) _ _ _ _ (hall d r)
  exact ⟨h', hlines'⟩

section Swapped

variable {first second : List UInt8}

theorem Ingestion.lines_swap_pair {g g₁ g₂ : Ingestion} {u₁ u₂ : Store} {number : Nat}
    (steady : access.Steady) (hfirst : edgeOfLine? first = some e) (hitem : e.isItem = true)
    (hsecond : edgeOfLine? second = some f) (hitem' : f.isItem = true)
    (h₁ : g.line number first access u = (.ok g₁, u₁))
    (h₂ : g₁.line (number + 1) second access u₁ = (.ok g₂, u₂)) :
    u₂ = (u.withItemsOf g e).withItemsOf g f ∧
      ∃ k₁ k₂ : Ingestion, g.line number second access u = (.ok k₁, u.withItemsOf g f) ∧
        k₁.line (number + 1) first access (u.withItemsOf g f) =
          (.ok k₂, (u.withItemsOf g f).withItemsOf g e) ∧
        k₂.run = g₂.run ∧ k₂.known = g₂.known := by
  obtain ⟨hrun₁, hknown₁, hstore₁⟩ := Stage.line_items hfirst hitem ⟨g, u⟩
  rw [line_stage h₁] at hrun₁ hknown₁ hstore₁
  obtain ⟨hrun₂, hknown₂, hstore₂⟩ := Stage.line_items hsecond hitem' ⟨g₁, u₁⟩
  rw [line_stage h₂] at hrun₂ hknown₂ hstore₂
  -- The first edge teaches nothing, so the second one adds the same items before it.
  obtain ⟨hd, hr⟩ := itemsOf_edge_congr hrun₁ hknown₁ f
  have hf (w : Store) : w.withItemsOf g₁ f = w.withItemsOf g f := by
    unfold Store.withItemsOf
    rw [hd, hr]
  subst hstore₁
  rw [hf] at hstore₂
  refine ⟨hstore₂, ?_⟩
  obtain ⟨k₁, hk₁, hkrun₁, hkknown₁⟩ := line_elsewhere steady hsecond hitem' h₂ hrun₁.symm
    hknown₁.symm number u.definitionItems u.referenceItems
  obtain ⟨k₂, hk₂, hkrun₂, hkknown₂⟩ := line_elsewhere steady hfirst hitem h₁
    (hkrun₁.trans hrun₁) (hkknown₁.trans hknown₁) (number + 1)
    (u.definitionItems.insertAll (g.definitionsOf f))
    (u.referenceItems.insertAll (g.referencesOf f))
  rw [hf] at hk₁
  exact ⟨k₁, k₂, hk₁, hk₂, hkrun₂.trans (hrun₂.trans hrun₁).symm,
    hkknown₂.trans (hknown₂.trans hknown₁).symm⟩

theorem takeLines_swapped {about : RunMeta} {before after : List (List UInt8)} {g : Ingestion}
    (steady : access.Steady) (hfirst : edgeOfLine? first = some e) (hitem : e.isItem = true)
    (hsecond : edgeOfLine? second = some f) (hitem' : f.isItem = true)
    (h : takeLines about access s (before ++ first :: second :: after) = (.ok g, u)) :
    ∃ g' u', takeLines about access s (before ++ second :: first :: after) = (.ok g', u') ∧
      Store.Exchanged (stageAfter about access s before).ingestion e f u u' := by
  have steady := steady.inTransaction
  obtain ⟨g₀, u₀, hbefore, h⟩ := Ingestion.lines_append_ok_iff.mp h
  obtain ⟨g₁, u₁, h₁, h⟩ := Action.bind_ok_iff.mp h
  obtain ⟨g₂, u₂, h₂, hafter⟩ := Action.bind_ok_iff.mp h
  have hstage : stageAfter about access s before = ⟨g₀, u₀⟩ := Ingestion.lines_stage hbefore
  obtain ⟨rfl, k₁, k₂, hk₁, hk₂, hrun, hknown⟩ :=
    Ingestion.lines_swap_pair steady hfirst hitem hsecond hitem' h₁ h₂
  obtain ⟨definitions, references, hd, hr, hall⟩ :=
    Ingestion.lines_elsewhere steady hafter hrun hknown
  obtain ⟨g', hg'⟩ := hall ((u₀.withItemsOf g₀ f).withItemsOf g₀ e).definitionItems
    ((u₀.withItemsOf g₀ f).withItemsOf g₀ e).referenceItems
  have hrest : g₀.lines (1 + before.length) (second :: first :: after)
      { access with inTransaction := true } u₀ = (.ok g', _) :=
    Action.bind_ok_iff.mpr ⟨k₁, _, hk₁, Action.bind_ok_iff.mpr ⟨k₂, _, hk₂, hg'⟩⟩
  refine ⟨g', _, Ingestion.lines_append_ok_iff.mpr ⟨g₀, u₀, hbefore, hrest⟩, ?_⟩
  rw [hstage]
  refine ⟨rfl, ⟨u₀.definitionItems.rows.map Prod.snd, definitions, ?_, ?_⟩,
    ⟨u₀.referenceItems.rows.map Prod.snd, references, ?_, ?_⟩⟩
  · rw [hd]
    simp [Store.withItemsOf, Store.withItems, Table.rows_insertAll]
  · simp [Store.withItemsOf, Store.withItems, Table.rows_insertAll]
  · rw [hr]
    simp [Store.withItemsOf, Store.withItems, Table.rows_insertAll]
  · simp [Store.withItemsOf, Store.withItems, Table.rows_insertAll]

end Swapped

end Lines

/-- The second stream is the first one with two neighbouring item edges in the other order. -/
structure ItemsSwapped (stream swapped : ByteStream) (before : List (List UInt8)) (e f : Edge) :
    Prop where
  lines : ∃ first second after, stream.lines = before ++ first :: second :: after ∧
    swapped.lines = before ++ second :: first :: after ∧ edgeOfLine? first = some e ∧
    edgeOfLine? second = some f
  items : e.isItem = true ∧ f.isItem = true
  failure : swapped.failure = stream.failure

section Dumps

variable {access : Access} {s t : Store} {settings : IngestSettings} {about : RunMeta}
  {stream swapped : ByteStream} {before : List (List UInt8)} {e f : Edge}

theorem ItemsSwapped.symm (h : ItemsSwapped stream swapped before e f) :
    ItemsSwapped swapped stream before f e where
  lines := by
    obtain ⟨first, second, after, hlines, hswapped, hfirst, hsecond⟩ := h.lines
    exact ⟨second, first, after, hswapped, hlines, hsecond, hfirst⟩
  items := h.items.symm
  failure := h.failure.symm

theorem ingestGraph_swapped {report : Report} (steady : access.Steady)
    (h : ItemsSwapped stream swapped before e f)
    (hg : ingestGraph about stream access s = (.ok report, t)) :
    ∃ report' t', ingestGraph about swapped access s = (.ok report', t') ∧
      Store.Exchanged (stageAfter about access s before).ingestion e f t t' := by
  obtain ⟨first, second, after, hlines, hswapped, hfirst, hsecond⟩ := h.lines
  obtain ⟨hb, ha, ⟨g, htake, -⟩, hfailure, hc⟩ := ingestGraph_ok_iff.mp hg
  rw [hlines] at htake
  obtain ⟨g', t', htake', hx⟩ :=
    takeLines_swapped steady hfirst h.items.1 hsecond h.items.2 htake
  rw [← hswapped] at htake'
  rw [steady.commitFails t t'] at hc
  exact ⟨_, t', ingestGraph_ok_iff.mpr ⟨hb, ha, ⟨g', htake', rfl⟩, h.failure.trans hfailure, hc⟩,
    hx⟩

theorem ingest_store_of_error {cause : IngestError}
    (hg : (ingestGraph about stream access s).1 = .error cause) :
    (ingest settings about stream access s).2 = s :=
  ingest_allOrNothing settings about stream access s cause (ingest_error_iff.mpr hg)

theorem ingest_swapped (settings : IngestSettings) (about : RunMeta) (s : Store)
    (steady : access.Steady) (h : ItemsSwapped stream swapped before e f) :
    (ingest settings about swapped access s).2.occurrences =
        (ingest settings about stream access s).2.occurrences ∨
      ∃ u u' run, Store.Exchanged (stageAfter about access s before).ingestion e f u u' ∧
        (ingest settings about stream access s).2 = u.derived run ∧
        (ingest settings about swapped access s).2 = u'.derived run := by
  cases hg : ingestGraph about stream access s with
  | mk result mid =>
    cases result with
    | error cause =>
      cases hg' : ingestGraph about swapped access s with
      | mk result' mid' =>
        cases result' with
        | error cause' =>
          rw [ingest_store_of_error (congrArg Prod.fst hg),
            ingest_store_of_error (congrArg Prod.fst hg')]
          exact .inl rfl
        | ok report' =>
          obtain ⟨report, u, hback, -⟩ := ingestGraph_swapped steady h.symm hg'
          rw [hg] at hback
          cases hback
    | ok report =>
      obtain ⟨report', mid', hg', hx⟩ := ingestGraph_swapped steady h hg
      have hrun : report'.run = report.run :=
        (closing_report_awaits hg').1.trans (closing_report_awaits hg).1.symm
      rw [ingest_of_graph hg, ingest_of_graph hg', hrun]
      by_cases hd : settings.derives = true
      · rw [if_pos hd, if_pos hd]
        rcases derivation_cases access mid false report.run with ⟨c, hder⟩ | ⟨counts, hder⟩
        · rcases derivation_cases access mid' false report.run with ⟨c', hder'⟩ | ⟨counts', hder'⟩
          · rw [hder, hder']
            exact .inl hx.occurrences
          · obtain ⟨counts, hback⟩ := derivation_exchanged steady hx.symm hder'
            rw [hder] at hback
            cases hback
        · obtain ⟨counts', hder'⟩ := derivation_exchanged steady hx hder
          rw [hder, hder']
          exact .inr ⟨mid, mid', report.run, hx, rfl, rfl⟩
      · rw [if_neg hd, if_neg hd]
        exact .inl hx.occurrences

theorem Store.AgreesBut.of_eq {disputed : Int → Prop} (h : t.occurrences = s.occurrences) :
    s.AgreesBut disputed t := fun _ ho => .inl (h ▸ ho)

theorem Store.AgreesBut.mem {disputed : Int → Prop} (h : s.AgreesBut disputed t)
    (hn : ∀ range, ¬ disputed range) {o : Occurrence} (ho : o ∈ s.occurrences) :
    o ∈ t.occurrences := (h o ho).resolve_right fun hd => hn _ hd.1

/-- Item edges in either order give the same occurrences, but for the roles of ranges that both of
them put among the references and only one as a definition. -/
theorem swapped_items_agree (settings : IngestSettings) (about : RunMeta) (s : Store)
    (steady : access.Steady) (h : ItemsSwapped stream swapped before e f) :
    let disputed := (stageAfter about access s before).ingestion.Disputed e f
    let one := (ingest settings about stream access s).2
    let other := (ingest settings about swapped access s).2
    one.AgreesBut disputed other ∧ other.AgreesBut disputed one ∧
      ((∀ range, ¬ disputed range) → ∀ o, o ∈ one.occurrences ↔ o ∈ other.occurrences) := by
  intro disputed one other
  have both : one.AgreesBut disputed other ∧ other.AgreesBut disputed one := by
    rcases ingest_swapped settings about s steady h with he | ⟨u, u', run, hx, hone, hother⟩
    · exact ⟨.of_eq he, .of_eq he.symm⟩
    · have hback : u'.derived run |>.AgreesBut disputed (u.derived run) := fun o ho =>
        (hx.symm.agrees run o ho).imp_right fun hd => ⟨hd.1.symm, hd.2⟩
      rw [← hone, ← hother] at hback
      have hagrees := hx.agrees run
      rw [← hone, ← hother] at hagrees
      exact ⟨hagrees, hback⟩
  exact ⟨both.1, both.2, fun hn o => ⟨both.1.mem hn, both.2.mem hn⟩⟩

end Dumps

theorem Session.access_steady (session : Session) (connection : Connection) (clock : Int) :
    (session.access connection clock).Steady := ⟨fun _ _ _ _ => rfl, fun _ _ => rfl⟩

theorem itemsSwapped_namedDump (lines : List (List UInt8)) {first second : List UInt8}
    {e f : Edge} (hfirst : edgeOfLine? first = some e) (hsecond : edgeOfLine? second = some f)
    (hi : e.isItem = true ∧ f.isItem = true)
    (hn : ∀ line ∈ namedLines ++ lines ++ [first, second], 10 ∉ line) :
    ItemsSwapped (namedDump (lines ++ [first, second])) (namedDump (lines ++ [second, first]))
      (namedLines ++ lines) e f where
  lines := by
    have hswapped : ∀ line ∈ namedLines ++ lines ++ [second, first], 10 ∉ line := by
      intro line hl
      apply hn
      simp only [List.mem_append, List.mem_cons, List.not_mem_nil, or_false] at hl ⊢
      exact hl.imp_right Or.symm
    refine ⟨first, second, [], ?_, ?_, hfirst, hsecond⟩
    · unfold namedDump
      rw [← List.append_assoc, ByteStream.lines_ofLines hn]
    · unfold namedDump
      rw [← List.append_assoc, ByteStream.lines_ofLines hswapped]
  items := hi
  failure := rfl

/-- The function is its own definition, whether it is put among the references before or after
that. -/
theorem defined_in_either_order :
    let access := ({ onDisk := false } : Session).access .writer 0
    let one := (ingest {} {} (namedDump definedLines) access .empty).2
    let other := (ingest {} {} (namedDump (bucketLines ++ [referringLine, definingLine])) access
      .empty).2
    one.occurrences = [⟨1, 1, 1, 1, .definition⟩] ∧
      ∀ o, o ∈ one.occurrences ↔ o ∈ other.occurrences := by
  intro access one other
  have hone : one.occurrences = [⟨1, 1, 1, 1, .definition⟩] := by decide +kernel
  have hdefining : edgeOfLine? definingLine = some (.item 6 (some [2]) none none) := by
    decide +kernel
  have hreferring : edgeOfLine? referringLine =
      some (.item 7 (some [2]) none (some "references")) := by decide +kernel
  have h := itemsSwapped_namedDump bucketLines hdefining hreferring ⟨rfl, rfl⟩
    (by decide +kernel)
  have hnone : (stageAfter {} access .empty (namedLines ++ bucketLines)).ingestion.referencesOf
      (.item 6 (some [2]) none none) = [] := by decide +kernel
  refine ⟨hone, (swapped_items_agree {} {} .empty (Session.access_steady _ _ _) h).2.2 ?_⟩
  rintro range ⟨r, hr, -⟩
  rw [hnone] at hr
  cases hr

def referencesLine : List UInt8 := "[\"edge\",\"textDocument/references\",3,6]".toUTF8.toList

/-- A reference that is a definition by one edge only gets its role from the edge that comes
first. -/
theorem first_item_decides_role :
    ¬ ∀ (stream swapped : ByteStream) (before : List (List UInt8)) (e f : Edge),
      ItemsSwapped stream swapped before e f →
      ∀ o, o ∈ (ingest {} {} stream {} .empty).2.occurrences ↔
        o ∈ (ingest {} {} swapped {} .empty).2.occurrences := by
  intro claim
  have hflagged : edgeOfLine? (propertyLine "\"definitions\"") =
      some (.item 6 (some [2]) none (some "definitions")) := by decide +kernel
  have hplain : edgeOfLine? (propertyLine "null") = some (.item 6 (some [2]) none none) := by
    decide +kernel
  have h := itemsSwapped_namedDump [referencesLine] hflagged hplain ⟨rfl, rfl⟩
    (by decide +kernel)
  have hone : (ingest {} {} (namedDump [referencesLine, propertyLine "\"definitions\"",
      propertyLine "null"]) {} .empty).2.occurrences = [⟨1, 1, 1, 1, .definition⟩] := by
    decide +kernel
  have hother : (ingest {} {} (namedDump [referencesLine, propertyLine "null",
      propertyLine "\"definitions\""]) {} .empty).2.occurrences = [⟨1, 1, 1, 1, .reference⟩] := by
    decide +kernel
  have hmem := (claim _ _ _ _ _ h ⟨1, 1, 1, 1, .definition⟩).mp
  simp only [List.cons_append, List.nil_append] at hmem
  rw [hone, hother] at hmem
  simp at hmem

end SymbolAtlas
