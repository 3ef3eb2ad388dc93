import SymbolAtlas.Proofs.Isolation

/-!
Histories of operations.  Runs get their numbers in the order in which they come, so a number that
was in use once is never that of another run.
-/

namespace SymbolAtlas

/-- What was done to a store that was empty at first, the latest first, and on which terms. -/
abbrev History := List (Operation × Access)

/-- Whether an operation succeeds in deriving the occurrences of a run that is there. -/
def Operation.Derives (access : Access) (s : Store) (run : Int) : Operation → Prop
  | ingest settings about stream => ∃ report counts,
    (SymbolAtlas.ingest settings about stream access s).1 = .ok report ∧ report.run = run ∧
      report.derivation = some counts
  | derive number => number = run ∧ s.runs.has run = true ∧
    ∃ counts, (SymbolAtlas.derive run access s).1 = .ok counts
  | rebuild number => number = run ∧ s.runs.has run = true ∧
    ∃ counts, (SymbolAtlas.rebuild run access s).1 = .ok counts
  | delete _ => False

namespace History

/-- The store that a history leads to. -/
def store : History → Store
  | [] => .empty
  | (op, access) :: earlier => op.after access (store earlier)

/-- Whether some derivation of the run has succeeded. -/
def Derived (run : Int) : History → Prop
  | [] => False
  | (op, access) :: earlier => op.Derives access (store earlier) run ∨ Derived run earlier

theorem reachable (history : History) : Reachable history.store := by
  induction history with
  | nil => exact .empty
  | cons step earlier ih => exact .after step.1 step.2 ih

theorem derived_append {run : Int} {history : History} (h : history.Derived run)
    (later : History) : Derived run (later ++ history) := by
  induction later with
  | nil => exact h
  | cons step rest ih => exact .inr ih

end History

theorem Table.has_insert_iff {α : Type} {t : Table α} {row : α} {id : Int} :
    (t.insert row).has id = true ↔ t.has id = true ∨ id = t.last + 1 := by
  unfold Table.has
  rw [Table.get?_insert, Option.isSome_or, Bool.or_eq_true]
  by_cases he : id = t.last + 1 <;> simp [he]

namespace Store

variable {s t : Store}

theorem Write.runs {run : Int} (w : Write run s t) :
    t.runs.last = s.runs.last ∧ ∀ id, t.runs.has id = s.runs.has id := by
  cases w with
  | describing projectRoot lsifVersion => exact ⟨rfl, fun _ => Table.has_modify _ _⟩
  | _ => exact ⟨rfl, fun _ => rfl⟩

theorem runs_withDump (h : s.Scoped) (about : RunMeta) (createdAt : Int) (stream : ByteStream) :
    (s.withDump about createdAt stream).runs.last = s.runs.last + 1 ∧
      ∀ id, (s.withDump about createdAt stream).runs.has id = true ↔
        s.runs.has id = true ∨ id = s.runs.last + 1 :=
  withDump_keeps (motive := fun t => t.runs.last = s.runs.last + 1 ∧
      ∀ id, t.runs.has id = true ↔ s.runs.has id = true ∨ id = s.runs.last + 1)
    h about createdAt stream ⟨rfl, fun _ => Table.has_insert_iff⟩
    fun _ w hm => ⟨w.runs.1.trans hm.1, fun id => by rw [w.runs.2 id, hm.2 id]⟩

end Store

theorem Operation.Makes.runs {op : Operation} {s t : Store} (m : op.Makes s t) (h : s.Scoped) :
    s.runs.last ≤ t.runs.last ∧
      ∀ id, t.runs.has id = true → s.runs.has id = true ∨ op.target? = none ∧
        id = s.runs.last + 1 := by
  have hdump : ∀ about createdAt stream,
      s.runs.last ≤ (s.withDump about createdAt stream).runs.last ∧
        ∀ id, (s.withDump about createdAt stream).runs.has id = true →
          s.runs.has id = true ∨ (none : Option Int) = none ∧ id = s.runs.last + 1 := by
    intro about createdAt stream
    obtain ⟨hl, hh⟩ := Store.runs_withDump h about createdAt stream
    exact ⟨by omega, fun id hid => ((hh id).mp hid).imp_right fun he => ⟨rfl, he⟩⟩
  cases m with
  | stored settings about stream createdAt => exact hdump about createdAt stream
  | ingested settings about stream createdAt =>
    rw [Store.derived_eq]
    exact hdump about createdAt stream
  | derived run =>
    rw [Store.derived_eq]
    exact ⟨Int.le_refl _, fun _ => .inl⟩
  | rebuilt run =>
    rw [Store.derived_eq]
    exact ⟨Int.le_refl _, fun _ => .inl⟩
  | deleted run =>
    exact ⟨Int.le_refl _, fun _ hid => .inl ((Store.has_run_withoutRun h.ordered).mp hid).1⟩

namespace Operation

variable {op : Operation} {access : Access} {s : Store} {run : Int}

theorem only_after (h : s.Scoped) (hr : s.runs.has run = true) (ht : op.target? ≠ some run) :
    (op.after access s).only run = s.only run := by
  rcases op.after_cases access s with he | hm
  · rw [he]
  · exact hm.only h hr ht

theorem after_ingest {settings : IngestSettings} {about : RunMeta} {stream : ByteStream}
    {report : Report} {t : Store}
    (hi : SymbolAtlas.ingest settings about stream access s = (.ok report, t)) :
    (ingest settings about stream).after access s = t := congrArg Prod.snd hi

theorem derives_ingest {settings : IngestSettings} {about : RunMeta} {stream : ByteStream}
    {report : Report} {t : Store} {counts : DerivationCounts}
    (hi : SymbolAtlas.ingest settings about stream access s = (.ok report, t))
    (hd : report.derivation = some counts) :
    (ingest settings about stream).Derives access s report.run :=
  ⟨report, counts, congrArg Prod.fst hi, rfl, hd⟩

theorem Derives.target (hd : op.Derives access s run) (h : s.Scoped)
    (hr : s.runs.has run = true) : op.target? = some run := by
  cases op with
  | ingest settings about stream =>
    obtain ⟨report, counts, ho, he, -⟩ := hd
    have hrun := (ingest_ok_derivation (Prod.ext ho rfl)).1
    exact absurd (he.symm.trans hrun) (h.ordered.runs.ne_next hr)
  | derive number => exact congrArg some hd.1
  | rebuild number => exact congrArg some hd.1
  | delete number => exact hd.elim

theorem last_after (h : s.Scoped) : s.runs.last ≤ (op.after access s).runs.last := by
  rcases op.after_cases access s with he | hm
  · exact Int.le_of_eq (congrArg (·.runs.last) he.symm)
  · exact (hm.runs h).1

theorem Derives.le_last (hd : op.Derives access s run) (h : s.Scoped) :
    run ≤ (op.after access s).runs.last := by
  have of_live : s.runs.has run = true → run ≤ (op.after access s).runs.last := by
    intro hr
    obtain ⟨a, ha⟩ := Table.has_iff.mp hr
    exact Int.le_trans (h.ordered.runs.le_last ha) (last_after h)
  cases op with
  | ingest settings about stream =>
    obtain ⟨report, counts, ho, rfl, hsome⟩ := hd
    obtain ⟨hrun, createdAt, ⟨hnone, -⟩ | ⟨-, ht⟩⟩ := ingest_ok_derivation (Prod.ext ho rfl)
    · rw [hsome] at hnone
      cases hnone
    · have hl := (Store.runs_withDump h about createdAt stream).1
      rw [hrun, ← hl]
      simp only [after, ht, Store.derived_eq, Int.le_refl]
  | derive number => exact of_live hd.2.1
  | rebuild number => exact of_live hd.2.1
  | delete number => exact hd.elim

theorem derivation_mapError_cases {ε : Type} (f : StoreError → ε) (access : Access) (s : Store)
    (anew : Bool) (run : Int) :
    (∀ counts, ((derivation anew run).mapError f access s).1 ≠ .ok counts) ∧
        ((derivation anew run).mapError f access s).2 = s ∨
      (∃ counts, ((derivation anew run).mapError f access s).1 = .ok counts) ∧
        ((derivation anew run).mapError f access s).2 =
          (if anew then s.withoutOccurrences run else s).derived run := by
  rcases derivation_cases access s anew run with ⟨e, hd⟩ | ⟨counts, hd⟩
  · refine .inl ⟨fun counts ho => ?_, by rw [Action.mapError_store, hd]⟩
    have he := Action.mapError_error_iff (f := f).mpr ⟨e, congrArg Prod.fst hd, rfl⟩
    rw [he] at ho
    cases ho
  · have ho := Action.mapError_ok_iff (f := f).mpr hd
    exact .inr ⟨⟨counts, congrArg Prod.fst ho⟩, congrArg Prod.snd ho⟩

/-- All that can become of a run that an operation is about, if it is there before and after. -/
theorem target_cases (h : s.Scoped) (hr : s.runs.has run = true) (ht : op.target? = some run)
    (live : (op.after access s).runs.has run = true) :
    op.after access s = s ∧ ¬ op.Derives access s run ∨
      (op.after access s = s.derived run ∨
        op.after access s = (s.withoutOccurrences run).derived run) ∧ op.Derives access s run := by
  cases op with
  | ingest settings about stream => cases ht
  | derive number =>
    cases ht
    rcases derivation_mapError_cases _ access s false run with ⟨hno, he⟩ | ⟨hok, he⟩
    · exact .inl ⟨he, fun ⟨_, _, counts, ho⟩ => hno counts ho⟩
    · exact .inr ⟨.inl he, rfl, hr, hok⟩
  | rebuild number =>
    cases ht
    rcases derivation_mapError_cases _ access s true run with ⟨hno, he⟩ | ⟨hok, he⟩
    · exact .inl ⟨he, fun ⟨_, _, counts, ho⟩ => hno counts ho⟩
    · exact .inr ⟨.inr he, rfl, hr, hok⟩
  | delete number =>
    cases ht
    rcases (Operation.delete run).after_cases access s with he | hm
    · exact .inl ⟨he, id⟩
    · generalize (Operation.delete run).after access s = t at hm live
      cases hm
      exact absurd rfl ((Store.has_run_withoutRun h.ordered).mp live).2

/-- A run that was not there before comes with an ingest, as the next one. -/
theorem new_run_cases (h : s.Scoped) (hn : s.runs.has run ≠ true)
    (live : (op.after access s).runs.has run = true) :
    run = s.runs.last + 1 ∧ ∃ about createdAt stream,
      op.after access s = s.withDump about createdAt stream ∧ ¬ op.Derives access s run ∨
      op.after access s = (s.withDump about createdAt stream).derived run ∧
        op.Derives access s run := by
  rcases op.after_cases access s with he | hm
  · exact absurd (he ▸ live) hn
  · obtain ⟨ht, hrun⟩ := ((hm.runs h).2 run live).resolve_left hn
    refine ⟨hrun, ?_⟩
    cases op with
    | ingest settings about stream =>
      simp only [after] at live ⊢
      cases hi : SymbolAtlas.ingest settings about stream access s with
      | mk result t =>
        cases result with
        | error e =>
          have hs := ingest_allOrNothing settings about stream access s e (by rw [hi])
          exact absurd (hs ▸ live) hn
        | ok report =>
          obtain ⟨hreport, createdAt, hd⟩ := ingest_ok_derivation hi
          refine ⟨about, createdAt, stream, hd.imp ?_ ?_⟩
          · rintro ⟨hnone, rfl⟩
            refine ⟨rfl, ?_⟩
            rintro ⟨other, counts, ho, -, hsome⟩
            rw [hi] at ho
            cases ho
            rw [hnone] at hsome
            cases hsome
          · rintro ⟨⟨counts, hsome⟩, rfl⟩
            rw [hrun, ← hreport]
            exact ⟨rfl, derives_ingest hi hsome⟩
    | derive number => cases ht
    | rebuild number => cases ht
    | delete number => cases ht

end Operation

end SymbolAtlas
