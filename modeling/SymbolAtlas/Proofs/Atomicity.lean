import Mathlib.Tactic.Common
import SymbolAtlas.Navigate
import SymbolAtlas.Proofs.Stage

namespace SymbolAtlas

variable {access : Access} {s t : Store}

namespace Ingestion

end Ingestion

theorem ingest_of_graph {settings : IngestSettings} {about : RunMeta} {stream : ByteStream}
    {report : Report} (h : ingestGraph about stream access s = (.ok report, t)) :
    ingest settings about stream access s =
      if settings.derives then
        match derivation false report.run access t with
        | (.ok counts, after) => (.ok { report with derivation := some counts }, after)
        | (.error cause, after) => (.ok { report with derivationError := some cause }, after)
      else (.ok report, t) := by
  unfold ingest
  change Action.andThen (ingestGraph about stream) _ access s = _
  simp only [Action.andThen, h]
  split
  next =>
    change Action.andThen (derivation false report.run).attempt _ access t = _
    simp only [Action.andThen, Action.attempt]
    split
    next hd => simp [hd, pure, Action.done]
    next hd => simp [hd, pure, Action.done]
  next => rfl

theorem ingest_error_iff {settings : IngestSettings} {about : RunMeta} {stream : ByteStream}
    {e : IngestError} :
    (ingest settings about stream access s).1 = .error e ↔
      (ingestGraph about stream access s).1 = .error e := by
  constructor
  · intro h
    obtain h | ⟨report, mid, hg, -⟩ := Action.bind_error_iff.mp h
    · exact h
    · rw [ingest_of_graph hg] at h
      split at h
      next => split at h <;> simp at h
      next => simp at h
  · exact fun h => Action.bind_error_iff.mpr (.inl h)

/-- The action changes nothing if it fails. -/
def Action.AllOrNothing {ε α : Type} (x : Action ε α) : Prop :=
  ∀ access store e, (x access store).1 = .error e → (x access store).2 = store

theorem Action.AllOrNothing.mapError {ε δ α : Type} {x : Action ε α} (h : x.AllOrNothing)
    (f : ε → δ) : (x.mapError f).AllOrNothing := by
  intro access store e he
  obtain ⟨cause, hc, -⟩ := Action.mapError_error_iff.mp he
  rw [Action.mapError_store]
  exact h access store cause hc

theorem derivation_allOrNothing (anew : Bool) (run : Int) : (derivation anew run).AllOrNothing :=
  fun _ _ _ => Action.transaction_error

theorem deleteRun_allOrNothing (run : Int) : (deleteRun run).AllOrNothing :=
  fun _ _ _ => Action.transaction_error

theorem ingest_allOrNothing (settings : IngestSettings) (about : RunMeta) (stream : ByteStream) :
    (ingest settings about stream).AllOrNothing := by
  intro access store e h
  have hg : (ingestGraph about stream access store).1 = .error e := ingest_error_iff.mp h
  have hs : (ingestGraph about stream access store).2 = store := Action.transaction_error hg
  change (Action.andThen (ingestGraph about stream) _ access store).2 = store
  unfold Action.andThen
  split
  next hok => simp [hok] at hg
  next herr => rwa [herr] at hs

theorem closing_report_awaits {about : RunMeta} {stream : ByteStream} {report : Report}
    (h : ingestGraph about stream access s = (.ok report, t)) :
    report.run = s.runs.last + 1 ∧ report.derivation = none ∧ report.derivationError = none := by
  obtain ⟨-, p, hp, rfl, -⟩ := ingestGraph_stage h
  have hstart : Stage.Awaits (s.runs.last + 1)
      ⟨.start (s.runs.last + 1), s.withRun about (about.createdAt.getD access.clock)⟩ :=
    ⟨rfl, rfl, rfl, rfl⟩
  have hend := (Stage.awaits_kept _).lines stream.lines hstart
  rw [hp] at hend
  exact ⟨hend.report, hend.derivation, hend.derivationError⟩

end SymbolAtlas
