import Mathlib.Algebra.Group.Nat.Defs
import SymbolAtlas.Proofs.Fitting
import SymbolAtlas.Proofs.Sections
import SymbolAtlas.Proofs.Valid

namespace SymbolAtlas

open Toml

namespace Toml

def Scalar.count (n : Nat) : Scalar := .int n

/-- A member of a section if there is a value for it. -/
def present (key : String) (v : Option Scalar) : List (String × Scalar) :=
  (v.map fun v => (key, v)).toList

theorem lines_count {key line : String} (hkey : IsBareKey key) {n : Option Nat}
    (h : countLine? key n = some line) :
    Lines (present key (n.map Scalar.count)) line.toList := by
  cases n with
  | none =>
    cases h
    exact .nil
  | some n =>
    unfold countLine? at h
    dsimp only at h
    split at h
    next hn =>
      cases h
      have hline : (key ++ " = " ++ toString n ++ "\n").toList =
          assignment key (RealFormat.natDigits n) ++ [] := by
        simp [assignment, RealFormat.natDigits]
      rw [hline]
      exact .cons hkey (.count (Nat.lt_of_le_of_lt hn (by decide))) .nil
    next => cases h

theorem lines_flag {key : String} (hkey : IsBareKey key) (b : Option Bool) :
    Lines (present key (b.map .bool)) (flagLine key b).toList := by
  cases b with
  | none => exact .nil
  | some b =>
    cases b with
    | true =>
      have hline : (flagLine key (some true)).toList =
          assignment key ['t', 'r', 'u', 'e'] ++ [] := by
        simp [flagLine, assignment]
      rw [hline]
      exact .cons hkey .yes .nil
    | false =>
      have hline : (flagLine key (some false)).toList =
          assignment key ['f', 'a', 'l', 's', 'e'] ++ [] := by
        simp [flagLine, assignment]
      rw [hline]
      exact .cons hkey .no .nil

theorem settings?_present {first second : String} (hne : first ≠ second)
    (v w : Option Scalar) :
    Node.settings? first second
        (some (.table .header ((present first v ++ present second w).map fun m =>
          (m.1, .scalar m.2)))) =
      some (v.map .scalar, w.map .scalar) := by
  have hfirst : (first == second) = false := beq_false_of_ne hne
  have hsecond : (second == first) = false := beq_false_of_ne hne.symm
  cases v <;> cases w <;>
    simp [Node.settings?, present, Members.get?, List.lookup_cons, hfirst, hsecond]

theorem count?_map (n : Option Nat) :
    Node.count? ((n.map Scalar.count).map .scalar) = some n := by
  cases n <;> rfl

theorem flag?_map (b : Option Bool) : Node.flag? ((b.map Scalar.bool).map .scalar) = some b := by
  cases b <;> rfl

theorem exists_countLine?_iff {key : String} {n : Option Nat} :
    (∃ line, countLine? key n = some line) ↔ ∀ m ∈ n, m < 2 ^ 63 := by
  cases n with
  | none => simp [countLine?]
  | some n =>
    simp [countLine?, maxInteger, int64Bound]
    omega

end Toml

namespace Settings

def storageSection (c : Settings) : Section where
  name := "storage"
  members := present "read_pool_size" (c.storage.readPoolSize.map .count) ++
    present "busy_timeout_ms" (c.storage.busyTimeoutMs.map .count)

def ingestSection (c : Settings) : Section where
  name := "ingest"
  members := present "derive_occurrences" (c.ingest.deriveOccurrences.map .bool) ++
    present "progress_every" (c.ingest.progressEvery.map .count)

def querySection (c : Settings) : Section where
  name := "query"
  members := present "default_search_limit" (c.query.defaultSearchLimit.map .count) ++
    present "max_search_limit" (c.query.maxSearchLimit.map .count)

/-- The sections of a text of settings. -/
def sections (c : Settings) : List Section := [c.storageSection, c.ingestSection, c.querySection]

theorem nodup_present {first second : String} (hne : first ≠ second) (v w : Option Scalar) :
    ((present first v ++ present second w).map Prod.fst).Nodup := by
  cases v <;> cases w <;> simp [present, hne]

theorem ofEntries?_sections (c : Settings) :
    Document.ofEntries? (c.sections.flatMap Section.entries) =
      some (c.sections.map Section.table) := by
  have hnames : c.sections.map Section.name = ["storage", "ingest", "query"] := rfl
  refine Document.ofEntries?_sections (by rw [hnames]; decide) ?_
  simp only [sections, List.forall_mem_cons]
  exact ⟨nodup_present (by decide) _ _, nodup_present (by decide) _ _,
    nodup_present (by decide) _ _, List.forall_mem_nil _⟩

theorem ofMembers?_sections (c : Settings) :
    ofMembers? (c.sections.map Section.table) = some c := by
  have hstorage : Members.get? (c.sections.map Section.table) "storage" =
      some c.storageSection.table.2 := rfl
  have hingest : Members.get? (c.sections.map Section.table) "ingest" =
      some c.ingestSection.table.2 := rfl
  have hquery : Members.get? (c.sections.map Section.table) "query" =
      some c.querySection.table.2 := rfl
  unfold ofMembers?
  rw [hstorage, hingest, hquery]
  unfold storageSection ingestSection querySection Section.table
  rw [settings?_present (by decide), settings?_present (by decide),
    settings?_present (by decide)]
  simp only [Option.bind_eq_bind, Option.bind_some, count?_map, flag?_map]
  rfl

theorem text?_eq_some_iff {c : Settings} {text : String} :
    c.text? = some text ↔ ∃ poolSize timeout progress usual most,
      countLine? "read_pool_size" c.storage.readPoolSize = some poolSize ∧
      countLine? "busy_timeout_ms" c.storage.busyTimeoutMs = some timeout ∧
      countLine? "progress_every" c.ingest.progressEvery = some progress ∧
      countLine? "default_search_limit" c.query.defaultSearchLimit = some usual ∧
      countLine? "max_search_limit" c.query.maxSearchLimit = some most ∧
      "[storage]\n" ++ poolSize ++ timeout
        ++ "\n[ingest]\n" ++ flagLine "derive_occurrences" c.ingest.deriveOccurrences ++ progress
        ++ "\n[query]\n" ++ usual ++ most = text := by
  simp [text?, Option.bind_eq_some_iff]

theorem reads_text {c : Settings} {text : String} (h : c.text? = some text) :
    ∃ rest, text.toList = '[' :: rest ∧
      Reads ('[' :: rest) (c.sections.flatMap Section.entries) := by
  obtain ⟨poolSize, timeout, progress, usual, most, hpoolSize, htimeout, hprogress, husual, hmost,
    rfl⟩ := text?_eq_some_iff.mp h
  have hpoolSize := lines_count (by decide) hpoolSize
  have htimeout := lines_count (by decide) htimeout
  have hderive : IsBareKey "derive_occurrences" := by decide
  have hprogress := lines_count (by decide) hprogress
  have husual := lines_count (by decide) husual
  have hmost := lines_count (by decide) hmost
  have hingest := (lines_flag hderive c.ingest.deriveOccurrences).append hprogress
  have hnames : IsBareKey "storage" ∧ IsBareKey "ingest" ∧ IsBareKey "query" := by decide
  have hlast := reads_section (s := c.querySection) hnames.2.2 (husual.append hmost) .nil
  have hmiddle := reads_section (s := c.ingestSection) hnames.2.1 hingest hlast.blank
  have hreads := reads_section (s := c.storageSection) hnames.1 (hpoolSize.append htimeout)
    hmiddle.blank
  refine ⟨_, ?_, hreads⟩
  simp [storageSection, ingestSection, querySection]

theorem ofText?_text {c : Settings} {text : String} (h : c.text? = some text) :
    ofText? text = some c := by
  obtain ⟨rest, htext, hreads⟩ := reads_text h
  have hentries : entries? text = some (c.sections.flatMap Section.entries) := by
    unfold entries?
    rw [htext]
    exact hreads _ (Nat.lt_succ_self _)
  unfold ofText?
  rw [hentries, Option.bind_eq_bind, Option.bind_some, ofEntries?_sections]
  exact ofMembers?_sections c

/-- Every number that is set fits in 64 bits with a sign. -/
def Writable (c : Settings) : Prop := ∀ k n, c.get? k = some (.count n) → n < 2 ^ 63

theorem writable_iff {c : Settings} : c.Writable ↔
    (∀ n ∈ c.storage.readPoolSize, n < 2 ^ 63) ∧ (∀ n ∈ c.storage.busyTimeoutMs, n < 2 ^ 63) ∧
    (∀ n ∈ c.ingest.progressEvery, n < 2 ^ 63) ∧ (∀ n ∈ c.query.defaultSearchLimit, n < 2 ^ 63) ∧
    ∀ n ∈ c.query.maxSearchLimit, n < 2 ^ 63 := by
  have hcount {v : Option Nat} : (∀ n, v.map SettingValue.count = some (.count n) → n < 2 ^ 63) ↔
      ∀ n ∈ v, n < 2 ^ 63 := by
    cases v <;> simp
  constructor
  · intro h
    exact ⟨hcount.mp (h .readPoolSize), hcount.mp (h .busyTimeoutMs), hcount.mp (h .progressEvery),
      hcount.mp (h .defaultSearchLimit), hcount.mp (h .maxSearchLimit)⟩
  · rintro ⟨hpoolSize, htimeout, hprogress, husual, hmost⟩ k n hk
    cases k with
    | readPoolSize => exact hcount.mpr hpoolSize n hk
    | busyTimeoutMs => exact hcount.mpr htimeout n hk
    | deriveOccurrences =>
      obtain ⟨_, -, hflag⟩ := Option.map_eq_some_iff.mp hk
      cases hflag
    | progressEvery => exact hcount.mpr hprogress n hk
    | defaultSearchLimit => exact hcount.mpr husual n hk
    | maxSearchLimit => exact hcount.mpr hmost n hk

theorem exists_text_iff {c : Settings} : (∃ text, c.text? = some text) ↔ c.Writable := by
  rw [writable_iff]
  simp only [text?_eq_some_iff]
  constructor
  · rintro ⟨-, poolSize, timeout, progress, usual, most, hpoolSize, htimeout, hprogress, husual,
      hmost, -⟩
    exact ⟨exists_countLine?_iff.mp ⟨_, hpoolSize⟩, exists_countLine?_iff.mp ⟨_, htimeout⟩,
      exists_countLine?_iff.mp ⟨_, hprogress⟩, exists_countLine?_iff.mp ⟨_, husual⟩,
      exists_countLine?_iff.mp ⟨_, hmost⟩⟩
  · rintro ⟨hpoolSize, htimeout, hprogress, husual, hmost⟩
    obtain ⟨_, hpoolSize⟩ := exists_countLine?_iff.mpr hpoolSize
    obtain ⟨_, htimeout⟩ := exists_countLine?_iff.mpr htimeout
    obtain ⟨_, hprogress⟩ := exists_countLine?_iff.mpr hprogress
    obtain ⟨_, husual⟩ := exists_countLine?_iff.mpr husual
    obtain ⟨_, hmost⟩ := exists_countLine?_iff.mpr hmost
    exact ⟨_, _, _, _, _, _, hpoolSize, htimeout, hprogress, husual, hmost, rfl⟩

/-- Reading gives no number that is too large to be written. -/
theorem writable_of_ofText? {text : String} {c : Settings} (h : ofText? text = some c) :
    c.Writable := by
  obtain ⟨entries, hentries, h⟩ := Option.bind_eq_some_iff.mp h
  obtain ⟨members, hmembers, h⟩ := Option.bind_eq_some_iff.mp h
  have hfit : members.Fit := Document.ofEntries?_fit (entries?_fits hentries) hmembers
  simp only [ofMembers?, Option.bind_eq_bind, Option.bind_eq_some_iff] at h
  obtain ⟨storage, hstorage, ingest, hingest, query, hquery, poolSize, hpoolSize, timeout, htimeout,
    derive, -, progress, hprogress, usual, husual, most, hmost, h⟩ := h
  cases h
  have hs := settings?_fits (fun _ => hfit.get?) hstorage
  have hi := settings?_fits (fun _ => hfit.get?) hingest
  have hq := settings?_fits (fun _ => hfit.get?) hquery
  exact writable_iff.mpr ⟨count?_fits hs.1 hpoolSize, count?_fits hs.2 htimeout,
    count?_fits hi.2 hprogress, count?_fits hq.1 husual, count?_fits hq.2 hmost⟩

theorem toToml_eq_ok_iff {c : Settings} {text : String} :
    c.toToml = .ok text ↔ c.text? = some text := by
  unfold toToml
  split
  next h => simp [h]
  next h => simp [h]

theorem ofToml_eq_ok_iff {text : String} {c : Settings} :
    ofToml text = .ok c ↔ ofText? text = some c ∧ c.Valid := by
  unfold ofToml read
  cases h : ofText? text with
  | none => exact ⟨fun h => (nomatch h), fun h => (nomatch h.1)⟩
  | some c' =>
    refine validate_eq_ok_iff.trans ?_
    rw [Option.some.injEq]
    constructor <;> rintro ⟨rfl, hvalid⟩ <;> exact ⟨rfl, hvalid⟩

/-- Valid settings can be written if and only if every number in them fits in 64 bits with a sign,
and then they are read back from their text as they were.  All settings that are read can be
written. -/
theorem settings_survive_text :
    (∀ c : Settings, c.validate = .ok c →
      ((∃ text, c.toToml = .ok text) ↔ ∀ k n, c.get? k = some (.count n) → n ≤ 2 ^ 63 - 1) ∧
      ∀ text, c.toToml = .ok text → ofToml text = .ok c) ∧
    ∀ text c, ofToml text = .ok c → ∃ again, c.toToml = .ok again ∧ ofToml again = .ok c := by
  simp only [toToml_eq_ok_iff, ofToml_eq_ok_iff, exists_text_iff]
  refine ⟨fun c hc => ⟨?_, fun text htext => ?_⟩, ?_⟩
  · refine forall_congr' fun k => forall_congr' fun n => imp_congr_right fun _ => ?_
    omega
  · exact ⟨ofText?_text htext, (validate_eq_ok_iff.mp hc).2⟩
  · rintro text c ⟨htext, hvalid⟩
    obtain ⟨again, hagain⟩ := exists_text_iff.mpr (writable_of_ofText? htext)
    exact ⟨again, hagain, ofText?_text hagain, hvalid⟩

/-- The largest number that can be written, the next one, and a number in another spelling. -/
theorem largest_limit_survives :
    (∃ text, toToml { query := { maxSearchLimit := some (2 ^ 63 - 1) } } = .ok text ∧
      ofToml text = .ok { query := { maxSearchLimit := some (2 ^ 63 - 1) } }) ∧
    (¬ ∃ text, toToml { storage := { busyTimeoutMs := some (2 ^ 63) } } = .ok text) ∧
    ∃ again, toToml { storage := { readPoolSize := some 4 } } = .ok again ∧
      ofToml again = .ok { storage := { readPoolSize := some 4 } } := by
  refine ⟨?_, ?_, ?_⟩
  · obtain ⟨hwrite, hread⟩ := settings_survive_text.1
      { query := { maxSearchLimit := some (2 ^ 63 - 1) } } rfl
    obtain ⟨text, htext⟩ := hwrite.mpr fun k n hk => by cases k <;> cases hk; exact Nat.le_refl _
    exact ⟨text, htext, hread text htext⟩
  · rw [(settings_survive_text.1 { storage := { busyTimeoutMs := some (2 ^ 63) } } rfl).1]
    intro h
    exact absurd (h .busyTimeoutMs _ rfl) (by decide)
  · refine settings_survive_text.2 "storage.read_pool_size = 0x4" _ ?_
    exact ofToml_eq_ok_iff.mpr ⟨by decide +kernel, .of_complaint? rfl⟩

end Settings

end SymbolAtlas
