import SymbolAtlas.Settings.Basic

namespace SymbolAtlas

/-- The settings by name. -/
inductive Setting where
  | readPoolSize
  | busyTimeoutMs
  | deriveOccurrences
  | progressEvery
  | defaultSearchLimit
  | maxSearchLimit
deriving DecidableEq

/-- What a setting can be set to. -/
inductive SettingValue where
  | count (n : Nat)
  | flag (b : Bool)
deriving DecidableEq

theorem getD_pos {limit : Option Nat} {usual : Nat} (h : limit ≠ some 0) (hu : 0 < usual) :
    0 < limit.getD usual := by
  cases limit with
  | none => exact hu
  | some n => exact Nat.pos_of_ne_zero fun hn => h (congrArg some hn)

namespace Settings

/-- What a setting is set to; none if it is unset. -/
def get? (c : Settings) : Setting → Option SettingValue
  | .readPoolSize => c.storage.readPoolSize.map .count
  | .busyTimeoutMs => c.storage.busyTimeoutMs.map .count
  | .deriveOccurrences => c.ingest.deriveOccurrences.map .flag
  | .progressEvery => c.ingest.progressEvery.map .count
  | .defaultSearchLimit => c.query.defaultSearchLimit.map .count
  | .maxSearchLimit => c.query.maxSearchLimit.map .count

/-- There is nothing more to settings than what each of them is set to. -/
theorem ext_get? {c c' : Settings} (h : ∀ k, c.get? k = c'.get? k) : c = c' := by
  have hcount {n n' : Option Nat} (h : n.map SettingValue.count = n'.map .count) : n = n' :=
    (Option.map_inj_right fun _ _ => SettingValue.count.inj).mp h
  have hflag {b b' : Option Bool} (h : b.map SettingValue.flag = b'.map .flag) : b = b' :=
    (Option.map_inj_right fun _ _ => SettingValue.flag.inj).mp h
  obtain ⟨⟨poolSize, timeout⟩, ⟨derive, progress⟩, ⟨usual, most⟩⟩ := c
  obtain ⟨⟨poolSize', timeout'⟩, ⟨derive', progress'⟩, ⟨usual', most'⟩⟩ := c'
  obtain rfl : poolSize = poolSize' := hcount (h .readPoolSize)
  obtain rfl : timeout = timeout' := hcount (h .busyTimeoutMs)
  obtain rfl : derive = derive' := hflag (h .deriveOccurrences)
  obtain rfl : progress = progress' := hcount (h .progressEvery)
  obtain rfl : usual = usual' := hcount (h .defaultSearchLimit)
  obtain rfl : most = most' := hcount (h .maxSearchLimit)
  rfl

theorem get?_overlay (lower upper : Settings) (k : Setting) :
    (lower.overlay upper).get? k = (upper.get? k <|> lower.get? k) := by
  cases k <;> simp [overlay, get?, Option.map_or]

/-- What validation asks for. -/
structure Valid (c : Settings) : Prop where
  readers : ∀ n ∈ c.storage.readPoolSize, 1 ≤ n ∧ n ≤ StorageSettings.maxReaders
  usual : 1 ≤ c.query.usualLimit
  cap : c.query.usualLimit ≤ c.query.limitCap

theorem Valid.of_complaint? {c : Settings} (h : c.complaint? = none) : c.Valid := by
  unfold complaint? at h
  split at h
  next => cases h
  next hreaders =>
    split at h
    next => cases h
    next hdefault =>
      split at h
      next => cases h
      next =>
        split at h
        next => cases h
        next hcap =>
          refine ⟨fun n hn => ?_, getD_pos hdefault (by omega), Nat.le_of_not_lt hcap⟩
          rw [Option.mem_def.mp hn] at hreaders
          simpa [Nat.one_le_iff_ne_zero] using hreaders

theorem Valid.complaint? {c : Settings} (h : c.Valid) : c.complaint? = none := by
  have hreaders : ¬ (c.storage.readPoolSize.any fun n =>
      n < 1 || StorageSettings.maxReaders < n) = true := by
    intro hany
    obtain ⟨n, hn, hbad⟩ := (Option.any_eq_true _ _).mp hany
    have := h.readers n hn
    simp only [Bool.or_eq_true, decide_eq_true_eq] at hbad
    omega
  have husual : c.query.defaultSearchLimit ≠ some 0 := by
    intro hzero
    have := h.usual
    simp [QuerySettings.usualLimit, hzero] at this
  have hcap : c.query.maxSearchLimit ≠ some 0 := by
    intro hzero
    have := Nat.le_trans h.usual h.cap
    simp [QuerySettings.limitCap, hzero] at this
  rw [Settings.complaint?, if_neg hreaders, if_neg husual, if_neg hcap,
    if_neg (Nat.not_lt.mpr h.cap)]

theorem complaint?_eq_none_iff {c : Settings} : c.complaint? = none ↔ c.Valid :=
  ⟨Valid.of_complaint?, Valid.complaint?⟩

theorem validate_eq_ok_iff {c c' : Settings} : c.validate = .ok c' ↔ c = c' ∧ c.Valid := by
  rw [← complaint?_eq_none_iff]
  unfold validate
  split
  next h => simp [h]
  next h => simp [h]

end Settings

end SymbolAtlas
