import SymbolAtlas.Search.Query

namespace SymbolAtlas

/-- A text without wanted characters. -/
def Gap (keep : Char → Bool) (cs : List Char) : Prop := ∀ c ∈ cs, keep c = false

instance (keep : Char → Bool) : DecidablePred (Gap keep) := fun cs => List.decidableBAll _ cs

/-- A text cut into its stretches, each as long as it can be, with gaps in front and behind. -/
inductive Cut (keep : Char → Bool) : List Char → List (List Char) → Prop where
  | gap {gap : List Char} (hgap : Gap keep gap) : Cut keep gap []
  | stretch {gap part rest : List Char} {rs : List (List Char)} (hgap : Gap keep gap)
      (hne : part ≠ []) (hkeep : ∀ c ∈ part, keep c = true)
      (hend : ∀ c ∈ rest.head?, keep c = false) (hrest : Cut keep rest rs) :
      Cut keep (gap ++ (part ++ rest)) (part :: rs)

/-- A stretch of a text that goes no further on either side. -/
def IsStretch (keep : Char → Bool) (part cs : List Char) : Prop :=
  part ≠ [] ∧ (∀ c ∈ part, keep c = true) ∧
    ∃ before after, cs = before ++ (part ++ after) ∧
      (∀ c ∈ before.getLast?, keep c = false) ∧ ∀ c ∈ after.head?, keep c = false

section Stretches

variable {keep : Char → Bool}

theorem stretches_cons_of_not {c : Char} (h : keep c = false) (cs : List Char) :
    stretches keep (c :: cs) = stretches keep cs := by
  change (if keep c then _ else stretches keep cs) = stretches keep cs
  rw [if_neg (by rw [h]; exact Bool.false_ne_true)]

theorem stretches_gap_append {gap : List Char} (h : Gap keep gap) (rest : List Char) :
    stretches keep (gap ++ rest) = stretches keep rest := by
  induction gap with
  | nil => rfl
  | cons c gap ih =>
    rw [List.cons_append, stretches_cons_of_not (h c List.mem_cons_self)]
    exact ih fun d hd => h d (List.mem_cons_of_mem c hd)

theorem stretches_gap {gap : List Char} (h : Gap keep gap) : stretches keep gap = [] := by
  have hr := stretches_gap_append h []
  rwa [List.append_nil] at hr

theorem stretches_cons_of_end {c : Char} {cs : List Char} (hc : keep c = true)
    (hend : ∀ d ∈ cs.head?, keep d = false) :
    stretches keep (c :: cs) = [c] :: stretches keep cs := by
  rw [stretches.eq_def]
  simp only [hc, if_true]
  split
  next d _ r rs he =>
    have hd : keep d = false := hend d rfl
    rw [if_neg (by simp [hd]), he]
  next => rfl

theorem stretches_cons_of_stretch {c d : Char} {cs r : List Char} {rs : List (List Char)}
    (hc : keep c = true) (hd : keep d = true) (h : stretches keep (d :: cs) = r :: rs) :
    stretches keep (c :: d :: cs) = (c :: r) :: rs := by
  rw [stretches.eq_def]
  simp only [hc, hd, h, if_true]

theorem stretches_append_of_stretch {part rest : List Char} (hne : part ≠ [])
    (hkeep : ∀ c ∈ part, keep c = true) (hend : ∀ c ∈ rest.head?, keep c = false) :
    stretches keep (part ++ rest) = part :: stretches keep rest := by
  induction part with
  | nil => exact absurd rfl hne
  | cons c part ih =>
    have hc : keep c = true := hkeep c List.mem_cons_self
    cases part with
    | nil => exact stretches_cons_of_end hc hend
    | cons d part =>
      have hd : keep d = true := hkeep d (List.mem_cons_of_mem c List.mem_cons_self)
      exact stretches_cons_of_stretch hc hd
        (ih (List.cons_ne_nil d part) fun e he => hkeep e (List.mem_cons_of_mem c he))

theorem Cut.stretches_eq {cs : List Char} {rs : List (List Char)} (h : Cut keep cs rs) :
    stretches keep cs = rs := by
  induction h with
  | gap hgap => exact stretches_gap hgap
  | stretch hgap hne hkeep hend _ ih =>
    rw [stretches_gap_append hgap, stretches_append_of_stretch hne hkeep hend, ih]

theorem exists_cut (keep : Char → Bool) (cs : List Char) : ∃ rs, Cut keep cs rs := by
  induction hn : cs.length using Nat.strongRecOn generalizing cs with
  | ind n ih =>
    have hgap : Gap keep (cs.takeWhile fun c => !keep c) := fun c hc => by
      simpa using List.all_eq_true.mp List.all_takeWhile c hc
    have hsplit := List.takeWhile_append_dropWhile (p := fun c => !keep c) (l := cs)
    cases hr : cs.dropWhile fun c => !keep c with
    | nil =>
      rw [hr, List.append_nil] at hsplit
      exact ⟨[], hsplit ▸ .gap hgap⟩
    | cons c r =>
      have hc : keep c = true := by
        have := List.head?_dropWhile_not (fun c => !keep c) cs
        rw [hr] at this
        simpa using this
      have hkeep : (c :: r).takeWhile keep = c :: r.takeWhile keep := List.takeWhile_cons_of_pos hc
      have hrest := List.takeWhile_append_dropWhile (p := keep) (l := c :: r)
      have hlen : ((c :: r).dropWhile keep).length < n := by
        have h1 := congrArg List.length hsplit
        have h2 := congrArg List.length hrest
        rw [List.length_append, hr] at h1
        rw [List.length_append, hkeep, List.length_cons] at h2
        omega
      obtain ⟨rs, hcut⟩ := ih _ hlen _ rfl
      refine ⟨(c :: r).takeWhile keep :: rs, ?_⟩
      rw [← hsplit, hr]
      conv => lhs; rw [← hrest]
      refine .stretch hgap (by rw [hkeep]; exact List.cons_ne_nil _ _)
        (List.all_eq_true.mp List.all_takeWhile) (fun d hd => ?_) hcut
      have := List.head?_dropWhile_not keep (c :: r)
      rw [Option.mem_def.mp hd] at this
      simpa using this

/-- Every text has one cut, which is the one that is computed. -/
theorem cut_iff {cs : List Char} {rs : List (List Char)} :
    Cut keep cs rs ↔ stretches keep cs = rs := by
  refine ⟨Cut.stretches_eq, fun h => ?_⟩
  obtain ⟨rs', hcut⟩ := exists_cut keep cs
  rwa [← h, hcut.stretches_eq]

theorem cut_stretches (keep : Char → Bool) (cs : List Char) : Cut keep cs (stretches keep cs) :=
  cut_iff.mpr rfl

theorem Cut.eq_nil_iff {cs : List Char} {rs : List (List Char)} (h : Cut keep cs rs) :
    rs = [] ↔ Gap keep cs := by
  refine ⟨fun he => ?_, fun hg => h.stretches_eq.symm.trans (stretches_gap hg)⟩
  cases h with
  | gap hgap => exact hgap
  | stretch => cases he

theorem stretches_append {cs rest : List Char}
    (h : (∀ c ∈ cs.getLast?, keep c = false) ∨ ∀ c ∈ rest.head?, keep c = false) :
    stretches keep (cs ++ rest) = stretches keep cs ++ stretches keep rest := by
  have hcut := cut_stretches keep cs
  generalize stretches keep cs = rs at hcut
  induction hcut with
  | gap hgap => exact stretches_gap_append hgap rest
  | @stretch gap part tail rs hgap hne hkeep hend _ ih =>
    rw [List.append_assoc, List.append_assoc, stretches_gap_append hgap]
    cases tail with
    | nil =>
      -- The stretch is the end of the text, so the other one has to begin with a gap.
      have hlast : ∀ c ∈ rest.head?, keep c = false := by
        refine h.resolve_left fun hl => ?_
        have hmem := List.getLast_mem hne
        have hg : (gap ++ (part ++ [])).getLast? = some (part.getLast hne) := by
          rw [List.append_nil, List.getLast?_append, List.getLast?_eq_some_getLast hne,
            Option.some_or]
        have hf := hl _ hg
        rw [hkeep _ hmem] at hf
        cases hf
      rw [List.nil_append, stretches_append_of_stretch hne hkeep hlast]
      exact congrArg (List.cons part) (ih (.inr hlast))
    | cons d tail =>
      have hrest := ih <| h.imp_left fun hl c hc => hl c (by
        rw [List.getLast?_append, List.getLast?_append, Option.mem_def.mp hc]
        rfl)
      have hnext : ∀ c ∈ (d :: tail ++ rest).head?, keep c = false := hend
      rw [stretches_append_of_stretch hne hkeep hnext, hrest, List.cons_append]

theorem Cut.stretch_of_mem {cs : List Char} {rs : List (List Char)} (h : Cut keep cs rs)
    {r : List Char} (hr : r ∈ rs) : r ≠ [] ∧ ∀ c ∈ r, keep c = true := by
  induction h with
  | gap => cases hr
  | stretch _ hne hkeep _ _ ih =>
    rcases List.mem_cons.mp hr with rfl | hr
    · exact ⟨hne, hkeep⟩
    · exact ih hr

theorem mem_stretches_iff {part cs : List Char} :
    part ∈ stretches keep cs ↔ IsStretch keep part cs := by
  constructor
  · intro hr
    have hcut := cut_stretches keep cs
    generalize stretches keep cs = rs at hcut hr
    induction hcut with
    | gap => cases hr
    | @stretch gap first rest rs hgap hne hkeep hend _ ih =>
      rcases List.mem_cons.mp hr with rfl | hr
      · exact ⟨hne, hkeep, gap, rest, rfl, fun c hc => hgap c (List.mem_of_getLast? hc), hend⟩
      · obtain ⟨hne', hkeep', before, after, rfl, hbefore, hafter⟩ := ih hr
        refine ⟨hne', hkeep', gap ++ (first ++ before), after, by simp, fun c hc => ?_, hafter⟩
        -- The gap between the two stands last, for a stretch cannot begin where another ends.
        cases before with
        | nil =>
          obtain ⟨d, r, rfl⟩ := List.exists_cons_of_ne_nil hne'
          have hd := hend d rfl
          rw [hkeep' d List.mem_cons_self] at hd
          cases hd
        | cons d before =>
          have hlast : (gap ++ (first ++ (d :: before))).getLast? = (d :: before).getLast? := by
            simp [List.getLast?_cons]
          exact hbefore c (hlast ▸ hc)
  · rintro ⟨hne, hkeep, before, after, rfl, hbefore, hafter⟩
    rw [stretches_append (.inl hbefore), stretches_append_of_stretch hne hkeep hafter]
    exact List.mem_append_right _ List.mem_cons_self

/-- Which gap stands between two texts does not matter, as long as there is one. -/
theorem stretches_between {gap : List Char} (hgap : Gap keep gap) (hne : gap ≠ [])
    (before after : List Char) :
    stretches keep (before ++ (gap ++ after)) = stretches keep before ++ stretches keep after := by
  obtain ⟨c, cs, rfl⟩ := List.exists_cons_of_ne_nil hne
  have hc : keep c = false := hgap c List.mem_cons_self
  have hhead : ∀ d ∈ (c :: cs ++ after).head?, keep d = false := fun d hd => by
    cases Option.some.inj hd
    exact hc
  rw [stretches_append (.inr hhead), stretches_gap_append hgap]

theorem stretches_append_gap {gap : List Char} (hgap : Gap keep gap) (cs : List Char) :
    stretches keep (cs ++ gap) = stretches keep cs := by
  rw [stretches_append (.inr fun c hc => hgap c (List.mem_of_head? hc)), stretches_gap hgap,
    List.append_nil]

end Stretches

theorem gap_marks : Gap isTermChar ['\x22'] ∧ Gap isTermChar ['\x22', '*'] ∧
    Gap isTermChar [' '] := by
  decide

theorem toList_termText (part : List Char) :
    (termText (String.ofList part)).toList = ['\x22'] ++ (part ++ ['\x22', '*']) := by
  simp [termText]

theorem stretches_termText {part : List Char} (hne : part ≠ [])
    (hkeep : ∀ c ∈ part, isTermChar c = true) :
    stretches isTermChar (termText (String.ofList part)).toList = [part] := by
  obtain ⟨hfirst, hlast, -⟩ := gap_marks
  rw [toList_termText, stretches_gap_append hfirst,
    stretches_append_of_stretch hne hkeep fun c hc => ?_, stretches_gap hlast]
  exact hlast c (List.mem_of_head? hc)

theorem stretches_joined {rs : List (List Char)}
    (h : ∀ r ∈ rs, r ≠ [] ∧ ∀ c ∈ r, isTermChar c = true) :
    stretches isTermChar (" ".intercalate (rs.map fun r => termText (String.ofList r))).toList =
      rs := by
  induction rs with
  | nil => rfl
  | cons r rs ih =>
    obtain ⟨hne, hr⟩ := h r List.mem_cons_self
    cases rs with
    | nil => simpa using stretches_termText hne hr
    | cons r' rs =>
      have hrest := ih fun x hx => h x (List.mem_cons_of_mem r hx)
      have hblank : " ".toList = [' '] := rfl
      rw [List.map_cons] at hrest
      rw [List.map_cons, List.map_cons, String.intercalate_cons_cons, String.toList_append,
        String.toList_append, List.append_assoc, hblank,
        stretches_between gap_marks.2.2 (by decide), stretches_termText hne hr, hrest,
        List.singleton_append]

theorem queryText?_eq (input : String) :
    queryText? input =
      if stretches isTermChar input.toList = [] then none
      else some (" ".intercalate
        ((stretches isTermChar input.toList).map fun r => termText (String.ofList r))) := by
  unfold queryText? queryTerms
  cases stretches isTermChar input.toList with
  | nil => rfl
  | cons r rs => simp [List.map_map, Function.comp_def]

theorem queryText?_of_stretches {input text : String}
    (h : stretches isTermChar input.toList = stretches isTermChar text.toList) :
    queryText? input = queryText? text := by
  rw [queryText?_eq, queryText?_eq, h]

/-- The text for a query is made of its stretches, each in quotes and with a star, and there is none
exactly if the query has no stretch.  What stands between them or around them does not matter, and
a query that is such a text already is left as it is. -/
theorem query_text_of_stretches (input : String) :
    (∃ rs, Cut isTermChar input.toList rs ∧ (∀ rs', Cut isTermChar input.toList rs' → rs' = rs) ∧
      (∀ r ∈ rs, ∀ c ∈ r, isTermChar c = true ∧ c ≠ '\x22') ∧
      (rs = [] → queryText? input = none) ∧
      (rs ≠ [] → queryText? input =
        some (" ".intercalate (rs.map fun r => "\x22" ++ String.ofList r ++ "\x22*")))) ∧
    (queryText? input = none ↔ ∀ c ∈ input.toList, isTermChar c = false) ∧
    (∀ before gap gap' after : String, input = before ++ gap ++ after →
      Gap isTermChar gap.toList → Gap isTermChar gap'.toList → gap ≠ "" → gap' ≠ "" →
      queryText? input = queryText? (before ++ gap' ++ after)) ∧
    (∀ gap : String, Gap isTermChar gap.toList →
      queryText? (gap ++ input) = queryText? input ∧
        queryText? (input ++ gap) = queryText? input) ∧
    ∀ text, queryText? input = some text → queryText? text = some text := by
  have hcut := cut_stretches isTermChar input.toList
  have htext := queryText?_eq input
  refine ⟨⟨_, hcut, fun rs' h => h.stretches_eq.symm, fun r hr c hc => ?_, fun hnil => ?_,
    fun hne => ?_⟩, ?_, fun before gap gap' after hi hgap hgap' hne hne' => ?_,
    fun gap hgap => ⟨?_, ?_⟩, fun text ht => ?_⟩
  · have hkeep := (hcut.stretch_of_mem hr).2 c hc
    refine ⟨hkeep, ?_⟩
    rintro rfl
    rw [gap_marks.1 _ List.mem_cons_self] at hkeep
    cases hkeep
  · rw [htext, if_pos hnil]
  · rw [htext, if_neg hne]
    rfl
  · refine Iff.trans ?_ hcut.eq_nil_iff
    rw [htext]
    split
    next hnil => exact iff_of_true rfl hnil
    next hne => exact iff_of_false nofun hne
  · subst hi
    refine queryText?_of_stretches ?_
    simp only [String.toList_append, List.append_assoc]
    rw [stretches_between hgap (by simpa using hne), stretches_between hgap' (by simpa using hne')]
  · refine queryText?_of_stretches ?_
    rw [String.toList_append, stretches_gap_append hgap]
  · refine queryText?_of_stretches ?_
    rw [String.toList_append, stretches_append_gap hgap]
  · rw [← ht]
    refine queryText?_of_stretches ?_
    rw [htext] at ht
    split at ht
    next => cases ht
    next =>
      cases ht
      exact stretches_joined fun r hr => hcut.stretch_of_mem hr

/-- Quotes, stars and operators are separators or words like others. -/
theorem operators_quoted :
    let text := "\x22a\x22* \x22OR\x22* \x22b\x22* \x22NEAR\x22* \x22c\x22*"
    queryText? "\x22a\x22 OR b* NEAR(c)" = some text ∧ queryText? text = some text := by
  intro text
  have htext : queryText? "\x22a\x22 OR b* NEAR(c)" = some text := by decide +kernel
  exact ⟨htext, (query_text_of_stretches _).2.2.2.2 text htext⟩

end SymbolAtlas
