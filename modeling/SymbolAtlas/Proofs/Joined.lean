import Mathlib.Data.Set.Card
import SymbolAtlas.Proofs.Roles
import SymbolAtlas.Proofs.Skipped

namespace SymbolAtlas

/-- A symbol at a range of a document. -/
structure Use where
  symbol : Int
  document : Int
  range : Int
deriving DecidableEq

def Occurrence.use (o : Occurrence) : Use := ⟨o.symbol, o.document, o.range⟩

theorem Occurrence.samePlace_iff_use {a b : Occurrence} :
    a.samePlace b = true ↔ a.run = b.run ∧ a.use = b.use := by
  cases a
  cases b
  simp [samePlace, use, and_assoc]

def DerivationCounts.of (counts : DerivationCounts) : Pass → Nat
  | .definitions => counts.definitions
  | .references => counts.references
  | .implementations => counts.implementations
  | .types => counts.types

def Pass.earlier : Pass → List Pass
  | definitions => []
  | references => [definitions]
  | implementations => [definitions, references]
  | types => [definitions, references, implementations]

theorem Pass.eq_or_earlier (pass other : Pass) :
    pass = other ∨ pass ∈ other.earlier ∨ other ∈ pass.earlier := by
  cases pass <;> cases other <;> decide

namespace Store

/-- An item of the run leads to a use over one kind of bucket. -/
def Leads (s : Store) (run : Int) (kind : BucketKind) (item : Item) (use : Use) : Prop :=
  item.run = run ∧ item.document = use.document ∧ item.range = use.range ∧
    ∃ r ∈ s.resultSets.rows, r.2.run = run ∧ r.2.bucket? kind = some item.bucket ∧
      ∃ moniker, r.2.moniker = some moniker ∧ ⟨moniker, use.symbol⟩ ∈ s.links

def DefinitionLeads (s : Store) (run : Int) (use : Use) : Prop :=
  ∃ r ∈ s.definitionItems.rows, s.Leads run .definitions r.2 use

/-- A reference leads to a use, and has the given flag. -/
def ReferenceLeads (s : Store) (run : Int) (kind : BucketKind) (isDefinition : Bool) (use : Use) :
    Prop :=
  ∃ r ∈ s.referenceItems.rows, r.2.isDefinition = isDefinition ∧ s.Leads run kind r.2.toItem use

def Reached (s : Store) (run : Int) (use : Use) : Pass → Prop
  | .definitions => s.DefinitionLeads run use
  | .references => ∃ isDefinition, s.ReferenceLeads run .references isDefinition use
  | .implementations => ∃ isDefinition, s.ReferenceLeads run .implementation isDefinition use
  | .types => ∃ isDefinition, s.ReferenceLeads run .typeDefinition isDefinition use

def FirstReached (s : Store) (run : Int) (pass : Pass) (use : Use) : Prop :=
  s.Reached run use pass ∧ ∀ earlier ∈ pass.earlier, ¬ s.Reached run use earlier

variable {s t : Store} {run : Int} {pass : Pass} {use : Use} {o : Occurrence}

theorem symbolOf?_eq_some_iff (h : s.Scoped) {moniker symbol : Int} :
    s.symbolOf? moniker = some symbol ↔ ⟨moniker, symbol⟩ ∈ s.links := by
  refine ⟨symbolOf?_mem, fun hl => ?_⟩
  -- The moniker of a link is there, and it has no second link.
  obtain ⟨m, hm⟩ := Table.has_iff.mp (h.links _ hl).1
  have hone := h.monikerLink _ (Table.mem_of_get? hm)
  obtain ⟨l, hlinks⟩ := List.length_eq_one_iff.mp hone
  have hself : (⟨moniker, symbol⟩ : MonikerLink) ∈ s.links.filter fun l => l.moniker == moniker :=
    List.mem_filter.mpr ⟨hl, beq_self_eq_true moniker⟩
  rw [hlinks] at hself
  unfold symbolOf?
  rw [← List.head?_filter, hlinks, ← List.mem_singleton.mp hself]
  rfl

theorem mem_found_iff_leads (h : s.Scoped) :
    o ∈ s.found run pass ↔ o.run = run ∧
      ∃ p ∈ s.passItems pass, o.role = p.2 ∧ s.Leads run pass.bucketKind p.1 o.use := by
  rw [mem_found_iff]
  unfold Leads
  simp only [mem_symbolsOfItem_iff, symbolOf?_eq_some_iff h]
  constructor
  · rintro ⟨p, hp, rfl, symbol, hrow, rfl⟩
    exact ⟨rfl, p, hp, rfl, rfl, rfl, rfl, hrow⟩
  · rintro ⟨rfl, p, hp, hrole, hrun, hdocument, hrange, hrow⟩
    rw [← hrun] at hrow
    refine ⟨p, hp, hrun, o.symbol, hrow, ?_⟩
    rw [hrun, hdocument, hrange, ← hrole]
    rfl

theorem mem_definitions_found_iff (h : s.Scoped) :
    o ∈ s.found run .definitions ↔
      o.run = run ∧ o.role = .definition ∧ s.DefinitionLeads run o.use := by
  rw [mem_found_iff_leads h]
  simp only [passItems, List.mem_map]
  constructor
  · rintro ⟨hrun, p, ⟨r, hr, rfl⟩, hrole, hleads⟩
    exact ⟨hrun, hrole, r, hr, hleads⟩
  · rintro ⟨hrun, hrole, r, hr, hleads⟩
    exact ⟨hrun, _, ⟨r, hr, rfl⟩, hrole, hleads⟩

theorem mem_references_found_iff (h : s.Scoped) (hp : pass ≠ .definitions) :
    o ∈ s.found run pass ↔ o.run = run ∧ ∃ isDefinition,
      s.ReferenceLeads run pass.bucketKind isDefinition o.use ∧
        o.role = pass.referenceRole isDefinition := by
  have hitems : s.passItems pass = s.referenceItems.rows.map fun r =>
      (r.2.toItem, pass.referenceRole r.2.isDefinition) := by
    cases pass with
    | definitions => exact absurd rfl hp
    | _ => rfl
  rw [mem_found_iff_leads h, hitems]
  simp only [List.mem_map]
  constructor
  · rintro ⟨hrun, p, ⟨r, hr, rfl⟩, hrole, hleads⟩
    exact ⟨hrun, r.2.isDefinition, ⟨r, hr, rfl, hleads⟩, hrole⟩
  · rintro ⟨hrun, _, ⟨r, hr, rfl, hleads⟩, hrole⟩
    exact ⟨hrun, _, ⟨r, hr, rfl⟩, hrole, hleads⟩

theorem reached_iff (h : s.Scoped) :
    s.Reached run use pass ↔ ∃ o ∈ s.found run pass, o.use = use := by
  cases pass with
  | definitions =>
    constructor
    · intro hleads
      exact ⟨⟨run, use.symbol, use.document, use.range, .definition⟩,
        (mem_definitions_found_iff h).mpr ⟨rfl, rfl, hleads⟩, rfl⟩
    · rintro ⟨o, ho, rfl⟩
      exact ((mem_definitions_found_iff h).mp ho).2.2
  | _ =>
    constructor
    · rintro ⟨isDefinition, hleads⟩
      exact ⟨⟨run, use.symbol, use.document, use.range, _⟩,
        (mem_references_found_iff h (by decide)).mpr ⟨rfl, isDefinition, hleads, rfl⟩, rfl⟩
    · rintro ⟨o, ho, rfl⟩
      obtain ⟨-, isDefinition, hleads, -⟩ := (mem_references_found_iff h (by decide)).mp ho
      exact ⟨isDefinition, hleads⟩

end Store

theorem foldl_addOccurrence_new (found there : List Occurrence) :
    ∃ new, found.foldl addOccurrence there = there ++ new ∧ (∀ o ∈ new, o ∈ found) ∧
      (new.Pairwise fun a b => a.samePlace b = false) ∧
      ∀ o ∈ new, there.any o.samePlace = false := by
  induction found generalizing there with
  | nil => exact ⟨[], (List.append_nil there).symm, by simp, .nil, by simp⟩
  | cons first rest ih =>
    rw [List.foldl_cons]
    by_cases ht : there.any first.samePlace = true
    · have hadd : addOccurrence there first = there := if_pos ht
      obtain ⟨new, hfold, hfound, hdistinct, hfree⟩ := ih there
      rw [hadd]
      exact ⟨new, hfold, fun o ho => List.mem_cons_of_mem _ (hfound o ho), hdistinct, hfree⟩
    · have hadd : addOccurrence there first = there ++ [first] := if_neg ht
      obtain ⟨new, hfold, hfound, hdistinct, hfree⟩ := ih (there ++ [first])
      rw [hadd]
      simp only [List.any_append, Bool.or_eq_false_iff, List.any_cons, List.any_nil,
        Bool.or_false] at hfree
      refine ⟨first :: new, ?_, ?_, ?_, ?_⟩
      · rw [hfold, List.append_assoc, List.singleton_append]
      · intro o ho
        rcases List.mem_cons.mp ho with rfl | ho
        · exact List.mem_cons_self
        · exact List.mem_cons_of_mem _ (hfound o ho)
      · refine List.pairwise_cons.mpr ⟨fun o ho => ?_, hdistinct⟩
        rw [Bool.eq_false_iff]
        intro hsame
        have hself : o.samePlace first = true := by
          rw [Occurrence.samePlace_congr hsame]
          exact first.samePlace_self
        rw [(hfree o ho).2] at hself
        cases hself
      · intro o ho
        rcases List.mem_cons.mp ho with rfl | ho
        · simpa using ht
        · exact (hfree o ho).1

namespace Store

variable {s t : Store} {run : Int} {pass : Pass} {o : Occurrence} {rows : List Occurrence}

/-- A pass adds one row for every use that it reaches and that has none. -/
theorem uses_added (hs : s.Scoped) (run : Int) (pass : Pass) (there : List Occurrence) :
    ∃ new, (s.found run pass).foldl addOccurrence there = there ++ new ∧
      (∀ o ∈ new, o ∈ s.found run pass) ∧ (new.map Occurrence.use).Nodup ∧
      ∀ use, use ∈ new.map Occurrence.use ↔ s.Reached run use pass ∧
        use ∉ (there.filter fun o => o.run == run).map Occurrence.use := by
  obtain ⟨new, hfold, hfound, hdistinct, hfree⟩ :=
    foldl_addOccurrence_new (s.found run pass) there
  have hrun : ∀ o ∈ s.found run pass, o.run = run := fun o ho => (found_inRun hs ho).1
  refine ⟨new, hfold, hfound, ?_, fun use => ⟨?_, ?_⟩⟩
  · refine List.pairwise_map.mpr (hdistinct.imp_of_mem fun {a b} ha hb hplace hsame => ?_)
    have hruns := (hrun a (hfound a ha)).trans (hrun b (hfound b hb)).symm
    rw [Occurrence.samePlace_iff_use.mpr ⟨hruns, hsame⟩] at hplace
    cases hplace
  · intro hu
    obtain ⟨o, ho, rfl⟩ := List.mem_map.mp hu
    refine ⟨(reached_iff hs).mpr ⟨o, hfound o ho, rfl⟩, fun hmem => ?_⟩
    obtain ⟨q, hq, hsame⟩ := List.mem_map.mp hmem
    obtain ⟨hq, hqrun⟩ := List.mem_filter.mp hq
    have hruns := (hrun o (hfound o ho)).trans (beq_iff_eq.mp hqrun).symm
    exact List.any_eq_false.mp (hfree o ho) q hq
      (Occurrence.samePlace_iff_use.mpr ⟨hruns, hsame.symm⟩)
  · rintro ⟨hreached, hno⟩
    obtain ⟨o, ho, rfl⟩ := (reached_iff hs).mp hreached
    -- The place of what was found is taken now, and it was free before.
    have htaken : ((s.found run pass).foldl addOccurrence there).any o.samePlace = true :=
      taken_foldl (.inr ho)
    rw [hfold] at htaken
    obtain ⟨q, hq, hplace⟩ := List.any_eq_true.mp htaken
    obtain ⟨hruns, hsame⟩ := Occurrence.samePlace_iff_use.mp hplace
    rw [hsame] at hno ⊢
    rcases List.mem_append.mp hq with hq | hq
    · have hqrun : (q.run == run) = true := beq_iff_eq.mpr (hruns.symm.trans (hrun o ho))
      exact absurd (List.mem_map_of_mem (List.mem_filter.mpr ⟨hq, hqrun⟩)) hno
    · exact List.mem_map_of_mem hq

/-- The rows of a run after some passes: one for every use that one of them reaches, as the first of
them to reach it has found it. -/
structure Joins (s : Store) (run : Int) (done : List Pass) (rows : List Occurrence) : Prop where
  once : (rows.map Occurrence.use).Nodup
  reached : ∀ use, use ∈ rows.map Occurrence.use ↔ ∃ pass ∈ done, s.Reached run use pass
  first : ∀ o ∈ rows, ∃ pass ∈ done, s.FirstReached run pass o.use ∧ o ∈ s.found run pass

theorem Joins.firstReached_iff (h : Joins s run pass.earlier rows) (use : Use) :
    s.Reached run use pass ∧ use ∉ rows.map Occurrence.use ↔ s.FirstReached run pass use := by
  rw [h.reached use]
  unfold FirstReached
  simp

theorem Joins.next (h : Joins s run pass.earlier rows) {new : List Occurrence}
    (hfound : ∀ o ∈ new, o ∈ s.found run pass) (honce : (new.map Occurrence.use).Nodup)
    (hnew : ∀ use, use ∈ new.map Occurrence.use ↔
      s.Reached run use pass ∧ use ∉ rows.map Occurrence.use) :
    Joins s run (pass.earlier ++ [pass]) (rows ++ new) := by
  refine ⟨?_, ?_, ?_⟩
  · rw [List.map_append, List.nodup_append]
    refine ⟨h.once, honce, fun a ha b hb he => ?_⟩
    exact ((hnew b).mp hb).2 (he ▸ ha)
  · intro use
    rw [List.map_append, List.mem_append, hnew use]
    -- A use with a row was reached by an earlier pass, and any other one by none of them.
    by_cases hthere : use ∈ rows.map Occurrence.use
    · obtain ⟨earlier, hearlier, hreached⟩ := (h.reached use).mp hthere
      simp only [hthere, true_or, true_iff]
      exact ⟨earlier, List.mem_append_left _ hearlier, hreached⟩
    · have hno := mt (h.reached use).mpr hthere
      simp only [hthere, false_or, not_false_eq_true, and_true]
      constructor
      · intro hreached
        exact ⟨pass, by simp, hreached⟩
      · rintro ⟨p, hp, hreached⟩
        rcases List.mem_append.mp hp with hp | hp
        · exact absurd ⟨p, hp, hreached⟩ hno
        · exact List.mem_singleton.mp hp ▸ hreached
  · intro o ho
    rcases List.mem_append.mp ho with ho | ho
    · obtain ⟨p, hp, hf⟩ := h.first o ho
      exact ⟨p, List.mem_append_left _ hp, hf⟩
    · have hfirst := (h.firstReached_iff o.use).mp ((hnew o.use).mp (List.mem_map_of_mem ho))
      exact ⟨pass, by simp, hfirst, hfound o ho⟩

/-- A store on the way of a derivation that began in `s`. -/
structure Passed (s : Store) (run : Int) (done : List Pass) (u : Store) : Prop where
  same : u = { s with occurrences := u.occurrences }
  joins : Joins s run done (u.occurrencesIn run)

theorem Passed.next {access : Access} {u v : Store} {count : Nat}
    (h : Passed s run pass.earlier u) (hs : s.Scoped)
    (hp : derivePass run pass access u = (.ok count, v)) :
    Passed s run (pass.earlier ++ [pass]) v ∧
      count = {use | s.FirstReached run pass use}.ncard ∧
      (v.occurrencesIn run).length = (u.occurrencesIn run).length + count := by
  obtain ⟨-, hcount, hv⟩ := derivePass_ok_iff.mp hp
  obtain ⟨new, hfold, hfound, honce, hnew⟩ := uses_added hs run pass u.occurrences
  have hv' : v = { s with occurrences := u.occurrences ++ new } := by
    rw [← hv, h.same, withPass_eq, hfold]
  have hin : v.occurrencesIn run = u.occurrencesIn run ++ new := by
    unfold occurrencesIn
    rw [hv', List.filter_append]
    congr 1
    exact List.filter_eq_self.mpr fun o ho => beq_iff_eq.mpr (found_inRun hs (hfound o ho)).1
  have hlength : count = new.length := by
    rw [hv, hv', List.length_append] at hcount
    omega
  refine ⟨⟨?_, ?_⟩, ?_, ?_⟩
  · rw [hv']
  · rw [hin]
    exact h.joins.next hfound honce hnew
  · have huses : {use | s.FirstReached run pass use} =
        ((new.map Occurrence.use).toFinset : Set Use) := by
      ext use
      rw [List.coe_toFinset]
      exact ((hnew use).trans (h.joins.firstReached_iff use)).symm
    rw [huses, Set.ncard_coe_finset, List.toFinset_card_of_nodup honce, List.length_map, hlength]
  · rw [hin, List.length_append, hlength]

theorem FirstReached.unique {other : Pass} {use : Use} (h : s.FirstReached run pass use)
    (h' : s.FirstReached run other use) : pass = other := by
  rcases pass.eq_or_earlier other with he | he | he
  · exact he
  · exact absurd h.1 (h'.2 pass he)
  · exact absurd h'.1 (h.2 other he)

/-- The role that a use gets: that of the definitions, else one that a reference gives, else that of
implementations, else that of types. -/
structure Ranks (s : Store) (run : Int) (o : Occurrence) : Prop where
  definition : s.FirstReached run .definitions o.use → o.role = .definition
  reference : s.FirstReached run .references o.use → ∃ isDefinition,
    s.ReferenceLeads run .references isDefinition o.use ∧
      o.role = if isDefinition then .definition else .reference
  implementation : s.FirstReached run .implementations o.use → o.role = .implementation
  type : s.FirstReached run .types o.use → o.role = .type

theorem ranks_of_first (hs : s.Scoped) (hfirst : s.FirstReached run pass o.use)
    (ho : o ∈ s.found run pass) : s.Ranks run o := by
  refine ⟨fun h => ?_, fun h => ?_, fun h => ?_, fun h => ?_⟩
  · cases hfirst.unique h
    exact ((mem_definitions_found_iff hs).mp ho).2.1
  · cases hfirst.unique h
    exact ((mem_references_found_iff hs (by decide)).mp ho).2
  · cases hfirst.unique h
    obtain ⟨-, _, -, hrole⟩ := (mem_references_found_iff hs (by decide)).mp ho
    exact hrole
  · cases hfirst.unique h
    obtain ⟨-, _, -, hrole⟩ := (mem_references_found_iff hs (by decide)).mp ho
    exact hrole

theorem passed_start (hn : s.occurrencesIn run = []) : Passed s run [] s := by
  refine ⟨rfl, ?_⟩
  rw [hn]
  exact ⟨.nil, by simp, by simp⟩

end Store

variable {access : Access} {s t : Store} {run : Int} {counts : DerivationCounts}

/-- A derivation of a run without occurrences leaves just the joined facts: one row for every use
that an item leads to, with the role of the first pass that reaches it, and a count of what each
pass was the first to reach.  Nothing else changes. -/
theorem derivation_joins (h : Reachable s) (hn : s.occurrencesIn run = [])
    (hf : fillOccurrences run access s = (.ok counts, t)) :
    (((t.occurrencesIn run).map Occurrence.use).Nodup ∧
      ∀ use, use ∈ (t.occurrencesIn run).map Occurrence.use ↔ ∃ pass, s.Reached run use pass) ∧
    (∀ o ∈ t.occurrencesIn run, s.Ranks run o) ∧
    (t = { s with occurrences := t.occurrences } ∧
      ∀ other, other ≠ run → t.occurrencesIn other = s.occurrencesIn other) ∧
    (∀ pass, counts.of pass = {use | s.FirstReached run pass use}.ncard) ∧
    counts.total = (t.occurrencesIn run).length := by
  have hs := h.scoped
  obtain ⟨u₁, u₂, u₃, h₁, h₂, h₃, h₄⟩ := fillOccurrences_passes hf
  obtain ⟨p₁, c₁, l₁⟩ := (Store.passed_start hn).next hs h₁
  obtain ⟨p₂, c₂, l₂⟩ := Store.Passed.next p₁ hs h₂
  obtain ⟨p₃, c₃, l₃⟩ := Store.Passed.next p₂ hs h₃
  obtain ⟨p₄, c₄, l₄⟩ := Store.Passed.next p₃ hs h₄
  refine ⟨⟨p₄.joins.once, fun use => ?_⟩, fun o ho => ?_, ⟨p₄.same, fun other hother => ?_⟩,
    fun pass => ?_, ?_⟩
  · rw [p₄.joins.reached use]
    refine exists_congr fun pass => and_iff_right ?_
    cases pass <;> decide
  · obtain ⟨pass, -, hfirst, hfound⟩ := p₄.joins.first o ho
    exact Store.ranks_of_first hs hfirst hfound
  · rw [← fillOccurrences_store hf]
    exact Store.occurrencesIn_of_only (Store.only_derived hs (Ne.symm hother))
  · cases pass with
    | definitions => exact c₁
    | references => exact c₂
    | implementations => exact c₃
    | types => exact c₄
  · have hstart : (s.occurrencesIn run).length = 0 := by rw [hn]; rfl
    unfold DerivationCounts.total
    omega

/-- A symbol with four buckets that share ranges; one of the references comes again with a flag. -/
def sharedLines : List (List UInt8) :=
  ["[\"vertex\",\"document\",1,\"a\",null]", "[\"vertex\",\"range\",2,[0,4],[0,7]]",
    "[\"vertex\",\"range\",3,[1,0],[1,3]]", "[\"vertex\",\"range\",6,[2,0],[2,3]]",
    "[\"vertex\",\"range\",7,[3,0],[3,3]]", "[\"vertex\",\"resultSet\",4]",
    "[\"vertex\",\"moniker\",5,\"npm\",\"a:f\",null,null]", "[\"edge\",\"contains\",1,[2,3,6,7]]",
    "[\"edge\",\"moniker\",4,5]", "[\"edge\",\"textDocument/definition\",4,10]",
    "[\"edge\",\"textDocument/references\",4,11]",
    "[\"edge\",\"textDocument/implementation\",4,12]",
    "[\"edge\",\"textDocument/typeDefinition\",4,13]", "[\"edge\",\"item\",10,[2],null,null]",
    "[\"edge\",\"item\",11,[2,3],null,null]", "[\"edge\",\"item\",11,[3],null,\"definitions\"]",
    "[\"edge\",\"item\",12,[3,6],null,null]",
    "[\"edge\",\"item\",13,[2,6,7],null,null]"].map fun line => line.toUTF8.toList

def sharedStore (occurrences : List Occurrence) : Store where
  runs := ⟨1, [(1, { repo := none, commit := none, createdAt := 0 })]⟩
  documents := ⟨1, [(1, ⟨1, "a", none⟩)]⟩
  monikers := ⟨1, [(1, ⟨1, "npm", "a:f", none, none⟩)]⟩
  symbols := ⟨1, [(1, ⟨"npm", "a:f", "f", none⟩)]⟩
  links := [⟨1, 1⟩]
  resultSets := ⟨1, [(1,
    { run := 1, definitions := some 10, references := some 11, typeDefinition := some 13
      implementation := some 12, moniker := some 1 })]⟩
  ranges := ⟨4, [(1, ⟨1, .ofCoords 0 4 0 7, none⟩), (2, ⟨1, .ofCoords 1 0 1 3, none⟩),
    (3, ⟨1, .ofCoords 2 0 2 3, none⟩), (4, ⟨1, .ofCoords 3 0 3 3, none⟩)]⟩
  definitionItems := ⟨1, [(1, ⟨1, 10, 1, 1⟩)]⟩
  referenceItems := ⟨8, [(1, ⟨⟨1, 11, 1, 1⟩, false⟩), (2, ⟨⟨1, 11, 1, 2⟩, false⟩),
    (3, ⟨⟨1, 11, 1, 2⟩, true⟩), (4, ⟨⟨1, 12, 1, 2⟩, false⟩), (5, ⟨⟨1, 12, 1, 3⟩, false⟩),
    (6, ⟨⟨1, 13, 1, 1⟩, false⟩), (7, ⟨⟨1, 13, 1, 3⟩, false⟩), (8, ⟨⟨1, 13, 1, 4⟩, false⟩)]⟩
  occurrences := occurrences
  searchIndex := [⟨1, "f", "a:f"⟩]

def sharedOccurrences : List Occurrence :=
  [⟨1, 1, 1, 1, .definition⟩, ⟨1, 1, 1, 2, .reference⟩, ⟨1, 1, 1, 3, .implementation⟩,
    ⟨1, 1, 1, 4, .type⟩]

/-- Eight references and a definition lead to four uses, and each pass is the first to reach one. -/
theorem shared_uses_joined :
    (∀ pass, {use | (sharedStore []).FirstReached 1 pass use}.ncard = 1) ∧
      (∃ pass, (sharedStore []).Reached 1 ⟨1, 1, 4⟩ pass) ∧
      (sharedStore []).Ranks 1 ⟨1, 1, 1, 2, .reference⟩ := by
  have hi : ingest { deriveOccurrences := some false } {} (.ofLines sharedLines) {} .empty =
      (.ok { run := 1, lines := 18, vertices := 7, edges := 11 }, sharedStore []) := by
    decide +kernel
  have hr : Reachable (sharedStore []) := Operation.after_ingest hi ▸ .after _ {} .empty
  have hf : fillOccurrences 1 {} (sharedStore []) =
      (.ok ⟨1, 1, 1, 1⟩, sharedStore sharedOccurrences) := by decide +kernel
  obtain ⟨⟨-, hmem⟩, hranks, -, hcounts, -⟩ := derivation_joins hr rfl hf
  refine ⟨fun pass => ?_, (hmem ⟨1, 1, 4⟩).mp (by decide), hranks _ (by decide)⟩
  rw [← hcounts pass]
  cases pass <;> rfl

end SymbolAtlas
