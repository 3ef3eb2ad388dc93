import SymbolAtlas.Ingest.Run

/-!
When actions succeed and when they fail.  An action in several steps succeeds exactly if every
step does, each in the store that the one before it has left.
-/

namespace SymbolAtlas

namespace Action

variable {ε δ α β : Type} {access : Access} {s t : Store}

theorem pure_ok_iff {a b : α} :
    (pure a : Action ε α) access s = (.ok b, t) ↔ a = b ∧ s = t := by
  change ((Except.ok a : Except ε α), s) = (.ok b, t) ↔ _
  rw [Prod.mk.injEq, Except.ok.injEq]

theorem bind_ok_iff {x : Action ε α} {f : α → Action ε β} {b : β} :
    (x >>= f) access s = (.ok b, t) ↔
      ∃ a u, x access s = (.ok a, u) ∧ f a access u = (.ok b, t) := by
  change andThen x f access s = (.ok b, t) ↔ _
  unfold andThen
  constructor
  · intro h
    split at h
    next a u hx => exact ⟨a, u, hx, h⟩
    next => simp at h
  · rintro ⟨a, u, hx, hf⟩
    rw [hx]
    exact hf

theorem bind_error_iff {x : Action ε α} {f : α → Action ε β} {e : ε} :
    ((x >>= f) access s).1 = .error e ↔
      (x access s).1 = .error e ∨ ∃ a u, x access s = (.ok a, u) ∧ (f a access u).1 = .error e := by
  change (andThen x f access s).1 = .error e ↔ _
  unfold andThen
  split
  next a u hx =>
    constructor
    · exact fun h => .inr ⟨a, u, hx, h⟩
    · rintro (h | ⟨b, v, hb, h⟩)
      · simp [hx] at h
      · obtain ⟨rfl, rfl⟩ : a = b ∧ u = v := by simpa [hx] using hb
        exact h
  next c u hx => simp [hx]

theorem mapError_ok_iff {x : Action ε α} {f : ε → δ} {a : α} :
    x.mapError f access s = (.ok a, t) ↔ x access s = (.ok a, t) := by
  unfold mapError
  split
  next b u hx => simp [hx]
  next c u hx => simp [hx]

theorem mapError_error_iff {x : Action ε α} {f : ε → δ} {e : δ} :
    (x.mapError f access s).1 = .error e ↔ ∃ c, (x access s).1 = .error c ∧ f c = e := by
  unfold mapError
  split
  next b u hx => simp [hx]
  next c u hx => simp [hx]

theorem mapError_store (x : Action ε α) (f : ε → δ) :
    (x.mapError f access s).2 = (x access s).2 := by
  unfold mapError
  split
  next hx => rw [hx]
  next hx => rw [hx]

theorem transaction_ok_iff {immediate : Bool} {refused : StoreError → ε} {body : Action ε α}
    {a : α} :
    transaction immediate refused body access s = (.ok a, t) ↔
      access.beginRefusal? immediate = none ∧
        body { access with inTransaction := true } s = (.ok a, t) ∧
        access.commitFails t = none := by
  unfold transaction
  split
  next hb => simp [hb]
  next hb =>
    split
    next b u hx =>
      split
      next hc =>
        simp only [hb, hx, Prod.mk.injEq, reduceCtorEq, false_and, true_and, false_iff, not_and]
        rintro ⟨-, rfl⟩
        simp [hc]
      next hc =>
        simp only [hb, hx, true_and]
        constructor
        · intro h
          obtain ⟨rfl, rfl⟩ : b = a ∧ u = t := by simpa using h
          exact ⟨rfl, hc⟩
        · exact fun h => h.1
    next c u hx => simp [hb, hx]

theorem transaction_error_iff {immediate : Bool} {refused : StoreError → ε}
    {body : Action ε α} {e : ε} :
    (transaction immediate refused body access s).1 = .error e ↔
      (∃ c, access.beginRefusal? immediate = some c ∧ refused c = e) ∨
      access.beginRefusal? immediate = none ∧
        ((body { access with inTransaction := true } s).1 = .error e ∨
          ∃ a u c, body { access with inTransaction := true } s = (.ok a, u) ∧
            access.commitFails u = some c ∧ refused c = e) := by
  unfold transaction
  split
  next c hb => simp [hb]
  next hb =>
    split
    next b u hx =>
      split
      next c hc =>
        constructor
        · intro h
          exact .inr ⟨hb, .inr ⟨b, u, c, hx, hc, by simpa using h⟩⟩
        · rintro (⟨d, hd, -⟩ | ⟨-, h | ⟨d, v, k, hd, hk, rfl⟩⟩)
          · simp [hb] at hd
          · simp [hx] at h
          · obtain ⟨rfl, rfl⟩ : b = d ∧ u = v := by simpa [hx] using hd
            rw [Option.some.inj (hc.symm.trans hk)]
      next hc =>
        simp only [reduceCtorEq, hb, hx, false_iff, not_or, not_and, not_exists]
        refine ⟨by simp, fun _ => ⟨by simp, ?_⟩⟩
        rintro d v k hd hk
        obtain ⟨rfl, rfl⟩ : b = d ∧ u = v := by simpa using hd
        simp [hc] at hk
    next c u hx => simp [hb, hx]

end Action

theorem statement_ok_iff {α : Type}
    {change : Access → Store → Except StoreError (α × Store)} {access : Access} {s t : Store}
    {a : α} :
    statement change access s = (.ok a, t) ↔
      access.writeRefusal? = none ∧ change access s = .ok (a, t) := by
  unfold statement
  split
  next hr => simp [hr]
  next hr =>
    split
    next b u hc => simp [hr, hc]
    next hc => simp [hr, hc]

theorem require_ok_iff {condition : Bool} {cause : EngineFailure} {u : Unit} :
    require condition cause = .ok u ↔ condition = true := by
  unfold require
  split
  next h => simp [h]
  next h => simp [h]

theorem except_check_ok_iff {ε α : Type} {x : Except ε Unit} {f : Unit → Except ε α} {a : α} :
    (x >>= f) = .ok a ↔ x = .ok () ∧ f () = .ok a := by
  cases x with
  | error e => simp [bind, Except.bind]
  | ok u => simp [bind, Except.bind]

theorem except_pure_ok_iff {ε α : Type} {a b : α} :
    (pure a : Except ε α) = .ok b ↔ a = b := by
  change Except.ok a = Except.ok b ↔ _
  rw [Except.ok.injEq]

end SymbolAtlas
