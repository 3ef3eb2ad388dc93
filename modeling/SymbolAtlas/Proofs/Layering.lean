import Mathlib.Algebra.Group.Nat.Defs
import Mathlib.Logic.Function.Basic
import SymbolAtlas.Proofs.Valid
import SymbolAtlas.Settings.Layers

namespace SymbolAtlas

namespace Setting

/-- The variable that sets a setting. -/
def variableName : Setting → String
  | readPoolSize => "CODENAV_STORAGE_READ_POOL_SIZE"
  | busyTimeoutMs => "CODENAV_STORAGE_BUSY_TIMEOUT_MS"
  | deriveOccurrences => "CODENAV_INGEST_DERIVE_OCCURRENCES"
  | progressEvery => "CODENAV_INGEST_PROGRESS_EVERY"
  | defaultSearchLimit => "CODENAV_QUERY_DEFAULT_SEARCH_LIMIT"
  | maxSearchLimit => "CODENAV_QUERY_MAX_SEARCH_LIMIT"

/-- The texts that set a setting, and what they set it to: numbers that a word of 64 bits can hold,
and for the flag the two words. -/
inductive Says : Setting → String → SettingValue → Prop where
  | count {k : Setting} {text : String} {digits : List Char} (hk : k ≠ deriveOccurrences)
      (htext : text.toList = digits ∨ text.toList = '+' :: digits) (hne : digits ≠ [])
      (hdigits : ∀ c ∈ digits, isDigit c = true) (hfit : digitsValue 10 0 digits < 2 ^ 64) :
      Says k text (.count (digitsValue 10 0 digits))
  | yes : Says deriveOccurrences "true" (.flag true)
  | no : Says deriveOccurrences "false" (.flag false)

/-- The environment sets a setting to a value. -/
def SetTo (env : String → Option String) (k : Setting) (v : SettingValue) : Prop :=
  ∃ text, env k.variableName = some text ∧ k.Says text v

/-- What a setting comes out as over a project's and a user's settings. -/
inductive Resolves (env : String → Option String) (project user : Settings) (k : Setting) :
    Option SettingValue → Prop where
  | environment {v : SettingValue} (henv : k.SetTo env v) : Resolves env project user k (some v)
  | project {v : SettingValue} (henv : ∀ w, ¬ k.SetTo env w) (hp : project.get? k = some v) :
      Resolves env project user k (some v)
  | user {v : SettingValue} (henv : ∀ w, ¬ k.SetTo env w) (hp : project.get? k = none)
      (hu : user.get? k = some v) : Resolves env project user k (some v)
  | unset (henv : ∀ w, ¬ k.SetTo env w) (hp : project.get? k = none) (hu : user.get? k = none) :
      Resolves env project user k none

end Setting

/-- What the file at a path adds, if there is a path at all: the settings that it spells, nothing
if it is not there, and otherwise an error. -/
inductive Layer (files : String → FileState) : Option String → Except SettingsError Settings → Prop
    where
  | nowhere : Layer files none (.ok {})
  | absent {path : String} (h : files path = .absent) : Layer files (some path) (.ok {})
  | unreadable {path : String} (h : files path ≠ .absent) (htext : (files path).text? = none) :
      Layer files (some path) (.error (.fileNotFound path))
  | unparsable {path text : String} (htext : (files path).text? = some text)
      (h : Settings.ofText? text = none) :
      Layer files (some path) (.error (.parse path "not settings"))
  | parsed {path text : String} {c : Settings} (htext : (files path).text? = some text)
      (h : Settings.ofText? text = some c) : Layer files (some path) (.ok c)

namespace Surroundings

/-- The layer of the user and that of the project in a directory. -/
structure Layers (around : Surroundings) (root : String)
    (user project : Except SettingsError Settings) : Prop where
  user : Layer around.files (Settings.userPath? around.env) user
  project : Layer around.files (some (Settings.projectPath root)) project

/-- What loading the settings of a project comes to. -/
inductive Loads (around : Surroundings) (root : String) : Except SettingsError Settings → Prop where
  | user {e : SettingsError} {project : Except SettingsError Settings}
      (h : around.Layers root (.error e) project) : Loads around root (.error e)
  | project {c : Settings} {e : SettingsError} (h : around.Layers root (.ok c) (.error e)) :
      Loads around root (.error e)
  | invalid {user project c : Settings} {e : SettingsError}
      (h : around.Layers root (.ok user) (.ok project))
      (hc : ∀ k : Setting, k.Resolves around.env project user (c.get? k))
      (he : c.complaint? = some e) : Loads around root (.error e)
  | valid {user project c : Settings} (h : around.Layers root (.ok user) (.ok project))
      (hc : ∀ k : Setting, k.Resolves around.env project user (c.get? k))
      (hvalid : c.Valid) : Loads around root (.ok c)

end Surroundings

/-- A text without the plus in front of it. -/
def afterPlus : List Char → List Char
  | '+' :: r => r
  | cs => cs

theorem afterPlus_eq_iff {cs digits : List Char} (hd : ∀ c ∈ digits, isDigit c = true) :
    afterPlus cs = digits ↔ cs = digits ∨ cs = '+' :: digits := by
  unfold afterPlus
  split
  next r =>
    refine ⟨fun h => .inr (congrArg _ h), ?_⟩
    rintro (rfl | h)
    · exact absurd (hd '+' List.mem_cons_self) (by decide)
    · exact (List.cons.inj h).2
  next hne =>
    refine ⟨.inl, ?_⟩
    rintro (h | h)
    · exact h
    · exact absurd h (hne _)

theorem variableCount?_eq (text : String) :
    variableCount? text =
      if (afterPlus text.toList).isEmpty || !(afterPlus text.toList).all isDigit then none
      else if digitsValue 10 0 (afterPlus text.toList) < word64Bound then
        some (digitsValue 10 0 (afterPlus text.toList))
      else none :=
  rfl

theorem variableCount?_eq_some_iff {text : String} {n : Nat} :
    variableCount? text = some n ↔ ∃ digits, (text.toList = digits ∨ text.toList = '+' :: digits) ∧
      digits ≠ [] ∧ (∀ c ∈ digits, isDigit c = true) ∧ digitsValue 10 0 digits < 2 ^ 64 ∧
      n = digitsValue 10 0 digits := by
  rw [variableCount?_eq]
  constructor
  · intro h
    split at h
    next => cases h
    next hgood =>
      obtain ⟨hne, hd⟩ : afterPlus text.toList ≠ [] ∧
          ∀ c ∈ afterPlus text.toList, isDigit c = true := by
        simpa using hgood
      split at h
      next hfit =>
        cases h
        exact ⟨_, (afterPlus_eq_iff hd).mp rfl, hne, hd, hfit, rfl⟩
      next => cases h
  · rintro ⟨digits, htext, hne, hd, hfit, rfl⟩
    rw [(afterPlus_eq_iff hd).mpr htext]
    have hgood : ¬ (digits.isEmpty || !digits.all isDigit) = true := by
      simpa [hne] using hd
    rw [if_neg hgood]
    exact if_pos hfit

namespace Setting

/-- What a text sets a setting to. -/
def parse? (k : Setting) (text : String) : Option SettingValue :=
  if k = deriveOccurrences then (variableFlag? text).map .flag
  else (variableCount? text).map .count

theorem parse?_eq_some_iff {k : Setting} {text : String} {v : SettingValue} :
    k.parse? text = some v ↔ k.Says text v := by
  unfold parse?
  split
  next hk =>
    subst hk
    unfold variableFlag?
    constructor
    · intro h
      split at h
      next ht =>
        cases h
        exact ht ▸ .yes
      next =>
        split at h
        next ht =>
          cases h
          exact ht ▸ .no
        next => cases h
    · rintro (⟨hk, -, -, -, -⟩ | _ | _)
      · exact absurd rfl hk
      · rfl
      · rfl
  next hk =>
    simp only [Option.map_eq_some_iff, variableCount?_eq_some_iff]
    constructor
    · rintro ⟨_, ⟨digits, htext, hne, hd, hfit, rfl⟩, rfl⟩
      exact .count hk htext hne hd hfit
    · rintro (⟨-, htext, hne, hd, hfit⟩ | _ | _)
      · exact ⟨_, ⟨_, htext, hne, hd, hfit, rfl⟩, rfl⟩
      · exact absurd rfl hk
      · exact absurd rfl hk

variable {env : String → Option String} {k : Setting}

theorem setTo_iff {v : SettingValue} :
    k.SetTo env v ↔ (env k.variableName).bind k.parse? = some v := by
  simp only [SetTo, Option.bind_eq_some_iff, parse?_eq_some_iff]

theorem forall_not_setTo_iff :
    (∀ v, ¬ k.SetTo env v) ↔ (env k.variableName).bind k.parse? = none := by
  simp only [setTo_iff, Option.eq_none_iff_forall_ne_some, ne_eq]

theorem resolves_iff {project user : Settings} {v : Option SettingValue} :
    k.Resolves env project user v ↔
      v = ((env k.variableName).bind k.parse? <|> project.get? k <|> user.get? k) := by
  constructor
  · rintro (henv | ⟨henv, hp⟩ | ⟨henv, hp, hu⟩ | ⟨henv, hp, hu⟩)
    · simp [setTo_iff.mp henv]
    · simp [forall_not_setTo_iff.mp henv, hp]
    · simp [forall_not_setTo_iff.mp henv, hp, hu]
    · simp [forall_not_setTo_iff.mp henv, hp, hu]
  · rintro rfl
    cases henv : (env k.variableName).bind k.parse? with
    | some v => exact .environment (setTo_iff.mpr henv)
    | none =>
      have hmute := forall_not_setTo_iff.mpr henv
      cases hp : project.get? k with
      | some v => exact .project hmute hp
      | none =>
        cases hu : user.get? k with
        | some v => exact .user hmute hp hu
        | none => exact .unset hmute hp hu

end Setting

namespace Settings

theorem get?_ofVariables (env : String → Option String) (k : Setting) :
    (ofVariables env).get? k = (env k.variableName).bind k.parse? := by
  cases k <;> simp [ofVariables, get?, Setting.variableName, Option.map_bind] <;> rfl

theorem layer_ofFile (files : String → FileState) (path : String) :
    Layer files (some path) (ofFile files path) := by
  unfold ofFile
  split
  next h => exact .absent h
  next h =>
    split
    next text htext =>
      unfold read
      split
      next c hc => exact .parsed htext hc
      next hc => exact .unparsable htext hc
    next htext => exact .unreadable h htext

end Settings

theorem Layer.unique {files : String → FileState} {path : Option String}
    {r r' : Except SettingsError Settings} (h : Layer files path r) (h' : Layer files path r') :
    r = r' := by
  -- What is found at a path is one thing, and a text spells one list of settings at most.
  cases h <;> cases h' <;> simp_all [FileState.text?]

namespace Surroundings

open Settings

variable {around around' : Surroundings} {root : String}

theorem exists_layers (around : Surroundings) (root : String) :
    ∃ user project, around.Layers root user project := by
  have hproject := layer_ofFile around.files (projectPath root)
  have huser : ∃ user, Layer around.files (userPath? around.env) user := by
    cases userPath? around.env with
    | none => exact ⟨_, .nowhere⟩
    | some path => exact ⟨_, layer_ofFile around.files path⟩
  obtain ⟨user, huser⟩ := huser
  exact ⟨user, _, huser, hproject⟩

/-- The error of the user's layer comes first, then that of the project's. -/
theorem Layers.load {user project : Except SettingsError Settings}
    (h : around.Layers root user project) :
    load around root = user >>= fun u => project >>= fun p =>
      validate ((overlay u p).overlay (ofVariables around.env)) := by
  have hproject : ofFile around.files (projectPath root) = project :=
    (layer_ofFile _ _).unique h.project
  have huser := h.user
  unfold Settings.load
  cases hpath : userPath? around.env with
  | none =>
    rw [hpath] at huser
    obtain rfl : .ok {} = user := Layer.nowhere.unique huser
    rw [hproject]
    rfl
  | some path =>
    rw [hpath] at huser
    obtain rfl : ofFile around.files path = user := (layer_ofFile _ _).unique huser
    rw [hproject]

theorem forall_resolves_iff {env : String → Option String} {user project c : Settings} :
    (∀ k : Setting, k.Resolves env project user (c.get? k)) ↔
      c = (overlay user project).overlay (ofVariables env) := by
  have hlayers (k : Setting) : ((overlay user project).overlay (ofVariables env)).get? k =
      ((env k.variableName).bind k.parse? <|> project.get? k <|> user.get? k) := by
    rw [get?_overlay, get?_overlay, get?_ofVariables]
  constructor
  · intro h
    exact ext_get? fun k => (Setting.resolves_iff.mp (h k)).trans (hlayers k).symm
  · rintro rfl k
    exact Setting.resolves_iff.mpr (hlayers k)

theorem loads_load (around : Surroundings) (root : String) :
    around.Loads root (load around root) := by
  obtain ⟨user, project, h⟩ := exists_layers around root
  rw [h.load]
  cases user with
  | error e => exact .user h
  | ok user =>
    cases project with
    | error e => exact .project h
    | ok project =>
      have hc := forall_resolves_iff.mpr
        (rfl : (overlay user project).overlay (ofVariables around.env) = _)
      change Loads around root (validate _)
      unfold validate
      split
      next e he => exact .invalid h hc he
      next he => exact .valid h hc (.of_complaint? he)

theorem Loads.eq {result : Except SettingsError Settings} (h : around.Loads root result) :
    load around root = result := by
  cases h with
  | user h => exact h.load
  | project h => exact h.load
  | invalid h hc he =>
    rw [h.load]
    obtain rfl := forall_resolves_iff.mp hc
    change validate _ = _
    rw [validate, he]
  | valid h hc hvalid =>
    rw [h.load]
    obtain rfl := forall_resolves_iff.mp hc
    exact validate_eq_ok_iff.mpr ⟨rfl, hvalid⟩

/-- What an upper layer sets hides what the lower ones say. -/
theorem load_congr {user project user' project' : Settings} (henv : around'.env = around.env)
    (h : around.Layers root (.ok user) (.ok project))
    (h' : around'.Layers root (.ok user') (.ok project'))
    (hproject : ∀ k : Setting, (∃ v, k.SetTo around.env v) ∨ project'.get? k = project.get? k)
    (huser : ∀ k : Setting, (∃ v, k.SetTo around.env v) ∨ project.get? k ≠ none ∨
      user'.get? k = user.get? k) :
    load around' root = load around root := by
  have hsame : (overlay user' project').overlay (ofVariables around.env) =
      (overlay user project).overlay (ofVariables around.env) := by
    refine ext_get? fun k => ?_
    rw [get?_overlay, get?_overlay, get?_overlay, get?_overlay, get?_ofVariables]
    rcases huser k with ⟨v, hv⟩ | huser
    · rw [Setting.setTo_iff.mp hv]
      rfl
    · rcases hproject k with ⟨v, hv⟩ | hproject
      · rw [Setting.setTo_iff.mp hv]
        rfl
      · rw [hproject]
        rcases huser with hset | huser
        · obtain ⟨v, hv⟩ := Option.ne_none_iff_exists'.mp hset
          rw [hv]
          rfl
        · rw [huser]
  rw [h.load, h'.load, henv]
  exact congrArg validate hsame

theorem ofVariables_update {env : String → Option String} {k : Setting} {text : String}
    (htext : env k.variableName = some text) (hmute : ∀ v, ¬ k.Says text v) :
    ofVariables (Function.update env k.variableName none) = ofVariables env := by
  refine ext_get? fun l => ?_
  rw [get?_ofVariables, get?_ofVariables]
  by_cases hl : l = k
  · subst hl
    have hnone : l.parse? text = none :=
      Option.eq_none_iff_forall_ne_some.mpr fun v hv => hmute v (Setting.parse?_eq_some_iff.mp hv)
    rw [Function.update_self, htext, Option.bind_some, hnone]
    rfl
  · have hname : l.variableName ≠ k.variableName := by
      revert hl
      cases l <;> cases k <;> decide
    rw [Function.update_of_ne hname]

theorem userPath?_update (env : String → Option String) (k : Setting) :
    userPath? (Function.update env k.variableName none) = userPath? env := by
  have hhome : "HOME" ≠ k.variableName := by cases k <;> decide
  have hprofile : "USERPROFILE" ≠ k.variableName := by cases k <;> decide
  rw [userPath?, userPath?, Function.update_of_ne hhome, Function.update_of_ne hprofile]

theorem load_update {k : Setting} {text : String} (htext : around.env k.variableName = some text)
    (hmute : ∀ v, ¬ k.Says text v) :
    load { around with env := Function.update around.env k.variableName none } root =
      load around root := by
  unfold load
  dsimp only
  rw [userPath?_update, ofVariables_update htext hmute]

theorem valid_of_load {c : Settings} (h : load around root = .ok c) : c.Valid := by
  have hloads := loads_load around root
  rw [h] at hloads
  cases hloads with
  | valid _ _ hvalid => exact hvalid

/-- Loading fails at the first file that cannot be read, the user's before the project's, and then
on what the layers come to if that is not valid; otherwise each setting is what the environment
sets it to, or else the project, or else the user.  What an upper layer sets hides what the lower
ones say, a variable that says nothing is as good as none, and what is loaded is valid. -/
theorem load_resolves (around : Surroundings) (root : String) :
    (∀ result, load around root = result ↔ around.Loads root result) ∧
    (∀ around' user project user' project', around'.env = around.env →
      around.Layers root (.ok user) (.ok project) →
      around'.Layers root (.ok user') (.ok project') →
      (∀ k : Setting, (∃ v, k.SetTo around.env v) ∨ project'.get? k = project.get? k) →
      (∀ k : Setting, (∃ v, k.SetTo around.env v) ∨ project.get? k ≠ none ∨
        user'.get? k = user.get? k) →
      load around' root = load around root) ∧
    (∀ (k : Setting) text, around.env k.variableName = some text → (∀ v, ¬ k.Says text v) →
      load { around with env := Function.update around.env k.variableName none } root =
        load around root) ∧
    ∀ c, load around root = .ok c →
      (∀ n, c.storage.readPoolSize = some n → 1 ≤ n ∧ n ≤ 8) ∧
      1 ≤ c.query.usualLimit ∧ c.query.usualLimit ≤ c.query.limitCap := by
  refine ⟨fun result => ⟨?_, Loads.eq⟩, ?_, fun k text => load_update, fun c hc => ?_⟩
  · rintro rfl
    exact loads_load around root
  · intro around' user project user' project' henv h h' hproject huser
    exact load_congr henv h h' hproject huser
  · have hvalid := valid_of_load hc
    exact ⟨hvalid.readers, hvalid.usual, hvalid.cap⟩

/-- A home with a file for the user and a variable for the number of readers. -/
def homely (userText poolSize : String) : Surroundings where
  env name :=
    if name = "HOME" then some "/home/me"
    else if name = Setting.readPoolSize.variableName then some poolSize
    else none
  files path :=
    if path = "/home/me/.codenav/config.toml" then .file userText.toUTF8.toList else .absent

theorem homely_layers {userText poolSize : String} {c : Settings}
    (htext : (FileState.file userText.toUTF8.toList).text? = some userText)
    (h : ofText? userText = some c) :
    (homely userText poolSize).Layers "/p" (.ok c) (.ok {}) := by
  have hpath : joinPath (joinPath "/home/me" ".codenav") "config.toml" =
      "/home/me/.codenav/config.toml" := by decide +kernel
  have hother : projectPath "/p" ≠ "/home/me/.codenav/config.toml" := by decide +kernel
  have huser : userPath? (homely userText poolSize).env =
      some (joinPath (joinPath "/home/me" ".codenav") "config.toml") := rfl
  constructor
  · rw [huser, hpath]
    exact .parsed htext h
  · exact .absent (if_neg hother)

/-- A number of readers that would not be valid, under a variable that asks for four of them. -/
theorem hidden_pool_size_loads :
    load (homely "[storage]\nread_pool_size = 99\n" "+4") "/p" =
      .ok { storage := { readPoolSize := some 4 } } ∧
    load (homely "" "+4") "/p" = load (homely "[storage]\nread_pool_size = 99\n" "+4") "/p" ∧
    load { homely "" "-4" with
        env := Function.update (homely "" "-4").env Setting.readPoolSize.variableName none } "/p" =
      load (homely "" "-4") "/p" ∧
    (∀ n, some 4 = some n → 1 ≤ n ∧ n ≤ 8) ∧ 1 ≤ 50 ∧ 50 ≤ 1000 := by
  have hbad : (homely "[storage]\nread_pool_size = 99\n" "+4").Layers "/p"
      (.ok { storage := { readPoolSize := some 99 } }) (.ok {}) :=
    homely_layers (by decide +kernel) (by decide +kernel)
  have hempty : (homely "" "+4").Layers "/p" (.ok {}) (.ok {}) :=
    homely_layers (by decide +kernel) (by decide +kernel)
  have hset : Setting.SetTo (homely "[storage]\nread_pool_size = 99\n" "+4").env .readPoolSize
      (.count 4) :=
    Setting.setTo_iff.mpr (by decide)
  have hresolves (k : Setting) :
      k.Resolves (homely "[storage]\nread_pool_size = 99\n" "+4").env {}
        { storage := { readPoolSize := some 99 } }
        (get? { storage := { readPoolSize := some 4 } } k) := by
    cases k with
    | readPoolSize => exact .environment hset
    | _ => exact .unset (Setting.forall_not_setTo_iff.mpr (by decide)) rfl rfl
  have hload := ((load_resolves _ "/p").1 _).mpr (.valid hbad hresolves (.of_complaint? rfl))
  refine ⟨hload, ?_, ?_, (load_resolves _ "/p").2.2.2 _ hload⟩
  · refine (load_resolves _ "/p").2.1 _ _ _ _ _ rfl hbad hempty (fun _ => .inr rfl) fun k => ?_
    cases k with
    | readPoolSize => exact .inl ⟨_, hset⟩
    | _ => exact .inr (.inr rfl)
  · refine (load_resolves _ "/p").2.2.1 .readPoolSize "-4" rfl fun v hv => ?_
    have hnone : Setting.parse? .readPoolSize "-4" = none := by decide
    rw [Setting.parse?_eq_some_iff.mpr hv] at hnone
    cases hnone

end Surroundings

end SymbolAtlas
