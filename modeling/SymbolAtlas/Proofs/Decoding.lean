import SymbolAtlas.Proofs.Written
import SymbolAtlas.Record.Decode

namespace SymbolAtlas

namespace Json

variable {members others shown : List (String × Json)} {names : List String} {name : String}

/-- The given members in any order, together with any that have none of the names. -/
def Among (names : List String) (shown members : List (String × Json)) : Prop :=
  ∃ extras, members.Perm (shown ++ extras) ∧ ∀ m ∈ extras, m.1 ∉ names

theorem field?_perm (h : members.Perm others) (name : String) :
    field? members name = field? others name := by
  have hp := h.filter fun m => m.1 == name
  unfold field?
  generalize members.filter (fun m => m.1 == name) = found at hp
  generalize others.filter (fun m => m.1 == name) = found' at hp
  -- With two or more of a name there is no field on either side.
  induction hp with
  | nil => rfl
  | @cons m rest rest' hr _ =>
    cases rest with
    | nil => rw [hr.nil_eq]
    | cons _ _ =>
      cases rest' with
      | nil => exact absurd hr.length_eq (by simp)
      | cons _ _ => rfl
  | swap => rfl
  | trans _ _ ih ih' => exact ih.trans ih'

theorem filter_unnamed (h : ∀ m ∈ members, m.1 ≠ name) :
    members.filter (fun m => m.1 == name) = [] := by
  rw [List.filter_eq_nil_iff]
  intro m hm
  simpa using h m hm

theorem field?_append (h : ∀ m ∈ others, m.1 ≠ name) :
    field? (members ++ others) name = field? members name := by
  unfold field?
  rw [List.filter_append, filter_unnamed h, List.append_nil]

theorem Among.field? (h : Among names shown members) (hn : name ∈ names) :
    Json.field? members name = Json.field? shown name := by
  obtain ⟨extras, hp, hother⟩ := h
  rw [field?_perm hp, field?_append]
  rintro m hm rfl
  exact hother m hm hn

theorem field?_cons_self {v : Json} (h : ∀ m ∈ members, m.1 ≠ name) :
    field? ((name, v) :: members) name = some (some v) := by
  unfold field?
  rw [List.filter_cons_of_pos (by simp), filter_unnamed h]

theorem field?_cons_other {m : String × Json} (h : m.1 ≠ name) :
    field? (m :: members) name = field? members name := by
  unfold field?
  rw [List.filter_cons_of_neg (by simpa using h)]

theorem field?_absent (h : ∀ m ∈ members, m.1 ≠ name) : field? members name = some none := by
  unfold field?
  rw [filter_unnamed h]

theorem field?_of_mem {v : Json} {found : Option Json} (hm : (name, v) ∈ members)
    (h : field? members name = some found) : found = some v := by
  have hin : (name, v) ∈ members.filter fun m => m.1 == name := by simp [hm]
  unfold field? at h
  split at h
  next he => rw [he] at hin; cases hin
  next m he =>
    rw [he, List.mem_singleton] at hin
    rw [← hin] at h
    exact (Option.some.inj h).symm
  next => cases h

theorem field?_change {before after : List (String × Json)} {other : String} {v v' : Json}
    (h : other ≠ name) :
    field? (before ++ (other, v') :: after) name = field? (before ++ (other, v) :: after) name := by
  unfold field?
  rw [List.filter_append, List.filter_append, List.filter_cons_of_neg (by simpa using h),
    List.filter_cons_of_neg (by simpa using h)]

/-- The field of a name, if it is there once. -/
def fieldAt (members : List (String × Json)) (name : String) : Option Json :=
  (field? members name).join

theorem fields?_of_found (h : ∀ n ∈ names, (field? members n).isSome) :
    fields? names members = some (names.map (fieldAt members)) := by
  unfold fields?
  induction names with
  | nil => rfl
  | cons n names ih =>
    obtain ⟨found, hf⟩ := Option.isSome_iff_exists.mp (h n List.mem_cons_self)
    have hrest := ih fun k hk => h k (List.mem_cons_of_mem n hk)
    rw [List.mapM_cons, hf, hrest]
    simp [fieldAt, hf]

theorem fields?_some {found : List (Option Json)} (h : fields? names members = some found) :
    found = names.map (fieldAt members) ∧
      ∀ n ∈ names, field? members n = some (fieldAt members n) := by
  unfold fields? at h
  induction names generalizing found with
  | nil => simpa using h.symm
  | cons n names ih =>
    rw [List.mapM_cons] at h
    obtain ⟨o, ho, h⟩ := Option.bind_eq_some_iff.mp h
    obtain ⟨rest, hr, h⟩ := Option.bind_eq_some_iff.mp h
    obtain ⟨he, hall⟩ := ih hr
    have hat : fieldAt members n = o := by simp [fieldAt, ho]
    refine ⟨?_, List.forall_mem_cons.mpr ⟨by rw [ho, hat], hall⟩⟩
    rw [List.map_cons, hat, ← he]
    exact (Option.some.inj h).symm

theorem position?_of_fields {line character : Option Json}
    (hl : field? members "line" = some line) (hc : field? members "character" = some character) :
    position? (.obj members) = (required? coordinate? line).bind fun l =>
      (required? coordinate? character).map fun c => ⟨l, c⟩ := by
  simp only [position?, fields?, List.mapM_cons, List.mapM_nil, hl, hc, Option.bind_eq_bind,
    Option.bind_some, Option.pure_def]
  cases required? coordinate? line <;> cases required? coordinate? character <;> rfl

theorem fields_of_position? {p : Position} (h : position? (.obj members) = some p) :
    ∀ n ∈ ["line", "character"], field? members n = some (fieldAt members n) ∧
      ∃ k, required? coordinate? (fieldAt members n) = some k := by
  obtain ⟨found, hfound, -⟩ := Option.bind_eq_some_iff.mp h
  obtain ⟨-, hall⟩ := fields?_some hfound
  have hline := hall "line" (by simp)
  have hcharacter := hall "character" (by simp)
  rw [position?_of_fields hline hcharacter] at h
  obtain ⟨l, hl, h⟩ := Option.bind_eq_some_iff.mp h
  obtain ⟨c, hc, -⟩ := Option.map_eq_some_iff.mp h
  simp only [List.forall_mem_cons, List.not_mem_nil, false_implies, implies_true, and_true]
  exact ⟨⟨hline, l, hl⟩, hcharacter, c, hc⟩

end Json

/-- What a field of a record is to hold. -/
inductive FieldContent where
  | id (i : Int)
  | ids (list : List Int)
  | text (s : String)
  | position (p : Position)
  | json (v : Json)
  | absent

namespace FieldContent

/-- The content of a field that may be absent. -/
def optional {α : Type} (content : α → FieldContent) (a : Option α) : FieldContent :=
  a.elim absent content

/-- Numbers are within the bounds of their fields. -/
def Fits : FieldContent → Prop
  | id i => -(int64Bound : Int) ≤ i ∧ i < int64Bound
  | ids list => ∀ i ∈ list, -(int64Bound : Int) ≤ i ∧ i < int64Bound
  | position p => p.line < word32Bound ∧ p.character < word32Bound
  | _ => True

/-- How a content stands in an object.  What is absent may also be null. -/
def Holds : FieldContent → Json → Prop
  | id i, v => v = .int i
  | ids list, v => v = .arr (list.map .int)
  | text s, v => v = .str s
  | position p, v => ∃ members, v = .obj members ∧
      Json.Among ["line", "character"] [("line", .int p.line), ("character", .int p.character)]
        members
  | json w, v => v = w
  | absent, v => v = .null

/-- The fields of an object hold contents; what is absent may be left out. -/
inductive ShownAs : List (String × FieldContent) → List (String × Json) → Prop where
  | nil : ShownAs [] []
  | shown {name : String} {c : FieldContent} {v : Json} {fields : List (String × FieldContent)}
      {members : List (String × Json)} (h : c.Holds v) (hr : ShownAs fields members) :
      ShownAs ((name, c) :: fields) ((name, v) :: members)
  | omitted {name : String} {fields : List (String × FieldContent)}
      {members : List (String × Json)} (hr : ShownAs fields members) :
      ShownAs ((name, absent) :: fields) members

/-- The members of an object hold contents, in any order and among any others. -/
def Carries (fields : List (String × FieldContent)) (members : List (String × Json)) : Prop :=
  ∃ shown, ShownAs fields shown ∧ Json.Among (fields.map Prod.fst) shown members

/-- What a field has to give for a content. -/
def Reads (c : FieldContent) (found : Option Json) : Prop :=
  (c = absent ∧ found = none) ∨ ∃ v, found = some v ∧ c.Holds v

theorem ShownAs.names {fields : List (String × FieldContent)} {shown : List (String × Json)}
    (h : ShownAs fields shown) : ∀ m ∈ shown, m.1 ∈ fields.map Prod.fst := by
  induction h with
  | nil => exact fun _ hm => absurd hm List.not_mem_nil
  | shown _ _ ih =>
    intro m hm
    rcases List.mem_cons.mp hm with rfl | hm
    · exact List.mem_cons_self
    · exact List.mem_cons_of_mem _ (ih m hm)
  | omitted _ ih => exact fun m hm => List.mem_cons_of_mem _ (ih m hm)

theorem ShownAs.field? {fields : List (String × FieldContent)} {shown : List (String × Json)}
    (h : ShownAs fields shown) (hn : (fields.map Prod.fst).Nodup) :
    ∀ f ∈ fields, ∃ found, Json.field? shown f.1 = some found ∧ f.2.Reads found := by
  induction h with
  | nil => exact fun _ hf => absurd hf List.not_mem_nil
  | @shown name c v fields members hv hr ih =>
    obtain ⟨hnot, hn⟩ := List.nodup_cons.mp hn
    rintro f hf
    rcases List.mem_cons.mp hf with rfl | hrest
    · refine ⟨some v, Json.field?_cons_self fun m hm he => hnot ?_, .inr ⟨v, rfl, hv⟩⟩
      exact he ▸ hr.names m hm
    · obtain ⟨found, hfound, hreads⟩ := ih hn f hrest
      refine ⟨found, ?_, hreads⟩
      rw [Json.field?_cons_other, hfound]
      intro he
      exact hnot (List.mem_map.mpr ⟨f, hrest, he.symm⟩)
  | @omitted name fields members hr ih =>
    obtain ⟨hnot, hn⟩ := List.nodup_cons.mp hn
    rintro f hf
    rcases List.mem_cons.mp hf with rfl | hrest
    · refine ⟨none, Json.field?_absent fun m hm he => hnot ?_, .inl ⟨rfl, rfl⟩⟩
      exact he ▸ hr.names m hm
    · exact ih hn f hrest

theorem Carries.field? {fields : List (String × FieldContent)} {members : List (String × Json)}
    (h : Carries fields members) (hn : (fields.map Prod.fst).Nodup) {f : String × FieldContent}
    (hf : f ∈ fields) : ∃ found, Json.field? members f.1 = some found ∧ f.2.Reads found := by
  obtain ⟨shown, hs, ha⟩ := h
  rw [ha.field? (List.mem_map_of_mem hf)]
  exact hs.field? hn f hf

theorem fields?_reads {fields : List (String × FieldContent)} {members : List (String × Json)}
    (h : ∀ f ∈ fields, ∃ found, Json.field? members f.1 = some found ∧ f.2.Reads found) :
    Json.fields? (fields.map Prod.fst) members =
        some ((fields.map Prod.fst).map (Json.fieldAt members)) ∧
      ∀ f ∈ fields, f.2.Reads (Json.fieldAt members f.1) := by
  refine ⟨Json.fields?_of_found fun n hn => ?_, fun f hf => ?_⟩
  · obtain ⟨f, hf, rfl⟩ := List.mem_map.mp hn
    obtain ⟨found, hfound, -⟩ := h f hf
    rw [hfound]
    rfl
  · obtain ⟨found, hfound, hreads⟩ := h f hf
    rwa [Json.fieldAt, hfound]

variable {found : Option Json}

theorem int64?_int {i : Int} (h : -(int64Bound : Int) ≤ i ∧ i < int64Bound) :
    Json.int64? (.int i) = some i := if_pos h

theorem Reads.id {i : Int} (h : (id i).Reads found) (hf : (id i).Fits) :
    Json.required? Json.int64? found = some i := by
  rcases h with ⟨hc, -⟩ | ⟨v, rfl, rfl⟩
  · cases hc
  · exact int64?_int hf

theorem Reads.text {s : String} (h : (text s).Reads found) :
    Json.required? Json.str? found = some s := by
  rcases h with ⟨hc, -⟩ | ⟨v, rfl, rfl⟩
  · cases hc
  · rfl

theorem Reads.json {w : Json} (h : (json w).Reads found) : found = some w := by
  rcases h with ⟨hc, -⟩ | ⟨v, rfl, rfl⟩
  · cases hc
  · rfl

theorem int64List?_ints {list : List Int} (h : (ids list).Fits) :
    Json.int64List? (.arr (list.map .int)) = some list := by
  unfold Json.int64List?
  dsimp only
  induction list with
  | nil => rfl
  | cons i list ih =>
    rw [List.map_cons, List.mapM_cons, int64?_int (h i List.mem_cons_self),
      ih fun k hk => h k (List.mem_cons_of_mem i hk)]
    rfl

theorem Reads.ids {list : List Int} (h : (ids list).Reads found) (hf : (ids list).Fits) :
    ∃ v, found = some v ∧ Json.int64List? v = some list := by
  rcases h with ⟨hc, -⟩ | ⟨v, rfl, rfl⟩
  · cases hc
  · exact ⟨_, rfl, int64List?_ints hf⟩

theorem Reads.optional {α : Type} {content : α → FieldContent} {decode : Json → Option α}
    {a : Option α} (h : (optional content a).Reads found)
    (hd : ∀ b v, a = some b → (content b).Holds v → decode v = some b ∧ v ≠ .null)
    (hc : ∀ b, content b ≠ absent) : Json.optional? decode found = some a := by
  cases a with
  | none =>
    rcases h with ⟨-, rfl⟩ | ⟨v, rfl, rfl⟩ <;> rfl
  | some b =>
    rcases h with ⟨ha, -⟩ | ⟨v, rfl, hv⟩
    · exact absurd ha (hc b)
    · obtain ⟨hdecode, hnull⟩ := hd b v rfl hv
      unfold Json.optional?
      split
      next he => cases he
      next he => exact absurd (Option.some.inj he) hnull
      next he => rw [← Option.some.inj he, hdecode]; rfl

theorem Reads.optionalText {s : Option String}
    (h : (FieldContent.optional FieldContent.text s).Reads found) :
    Json.optional? Json.str? found = some s := by
  refine h.optional (fun s v _ hv => ?_) fun s hs => by cases hs
  rw [show v = .str s from hv]
  exact ⟨rfl, fun hn => by cases hn⟩

theorem Reads.optionalId {i : Option Int}
    (h : (FieldContent.optional FieldContent.id i).Reads found)
    (hf : (FieldContent.optional FieldContent.id i).Fits) :
    Json.optional? Json.int64? found = some i := by
  refine h.optional (fun k v hk hv => ?_) fun k hk => by cases hk
  subst hk
  rw [show v = .int k from hv]
  exact ⟨int64?_int hf, fun hn => by cases hn⟩

theorem Reads.optionalIds {list : Option (List Int)}
    (h : (FieldContent.optional FieldContent.ids list).Reads found)
    (hf : (FieldContent.optional FieldContent.ids list).Fits) :
    Json.optional? Json.int64List? found = some list := by
  refine h.optional (fun k v hk hv => ?_) fun k hk => by cases hk
  subst hk
  rw [show v = .arr (k.map .int) from hv]
  exact ⟨int64List?_ints hf, fun hn => by cases hn⟩

theorem coordinate?_int {n : Nat} (h : n < word32Bound) : Json.coordinate? (.int n) = some n := by
  have hr : (0 : Int) ≤ n ∧ (n : Int) < word32Bound := by omega
  simp only [Json.coordinate?, if_pos hr, Int.toNat_natCast]

theorem Reads.position {p : Position} (h : (position p).Reads found) (hf : (position p).Fits) :
    Json.required? Json.position? found = some p := by
  rcases h with ⟨hc, -⟩ | ⟨v, rfl, members, rfl, ha⟩
  · cases hc
  · have hline : Json.field? members "line" = some (some (.int p.line)) := by
      rw [ha.field? (by simp), Json.field?_cons_self (by simp)]
    have hcharacter : Json.field? members "character" = some (some (.int p.character)) := by
      rw [ha.field? (by simp), Json.field?_cons_other (by simp), Json.field?_cons_self (by simp)]
    have hl : Json.coordinate? (.int p.line) = some p.line := coordinate?_int hf.1
    have hc : Json.coordinate? (.int p.character) = some p.character := coordinate?_int hf.2
    rw [Json.required?, Option.bind_some, Json.position?_of_fields hline hcharacter,
      Json.required?, Option.bind_some, hl, Option.bind_some, Json.required?, Option.bind_some, hc,
      Option.map_some]

/-- A value that no content of the same kind stands for. -/
def Misfits : FieldContent → Json → Prop
  | id _, v => Json.int64? v = none ∧ v ≠ .null
  | ids _, v => Json.int64List? v = none ∧ v ≠ .null
  | position _, v => Json.position? v = none
  | _, _ => False

/-- What is found does not misfit. -/
def Accepts (c : FieldContent) (found : Option Json) : Prop := ∀ v, found = some v → ¬c.Misfits v

theorem Accepts.id {i k : Int} (h : Json.required? Json.int64? found = some k) :
    (id i).Accepts found := by
  rintro v rfl ⟨hn, -⟩
  rw [Json.required?, Option.bind_some, hn] at h
  cases h

theorem Accepts.position {p q : Position} (h : Json.required? Json.position? found = some q) :
    (position p).Accepts found := by
  intro v hv hn
  rw [hv, Json.required?, Option.bind_some, show Json.position? v = none from hn] at h
  cases h

theorem Accepts.text (s : String) : (text s).Accepts found := fun _ _ h => h

theorem Accepts.json (w : Json) : (json w).Accepts found := fun _ _ h => h

theorem Accepts.ids {list others : List Int} {v : Json} (h : Json.int64List? v = some others) :
    (ids list).Accepts (some v) := by
  rintro w hw ⟨hn, -⟩
  rw [← Option.some.inj hw, h] at hn
  cases hn

theorem Accepts.optional {α : Type} {content : α → FieldContent} {decode : Json → Option α}
    {b : Option α} (h : Json.optional? decode found = some b)
    (hm : ∀ c v, (content c).Misfits v → decode v = none ∧ v ≠ .null) (a : Option α) :
    (FieldContent.optional content a).Accepts found := by
  cases a with
  | none => exact fun _ _ hv => hv
  | some c =>
    rintro v rfl hv
    obtain ⟨hn, hnull⟩ := hm c v hv
    unfold Json.optional? at h
    split at h
    next he => cases he
    next he => exact hnull (Option.some.inj he)
    next he =>
      rw [← Option.some.inj he, hn] at h
      cases h

theorem Accepts.optionalText (s : Option String) :
    (FieldContent.optional FieldContent.text s).Accepts found := by
  cases s <;> exact fun _ _ h => h

theorem Accepts.optionalId {i : Option Int} (h : Json.optional? Json.int64? found = some i)
    (k : Option Int) : (FieldContent.optional FieldContent.id k).Accepts found := by
  refine .optional h (fun c v hm => ?_) k
  exact hm

theorem Accepts.optionalIds {list : Option (List Int)}
    (h : Json.optional? Json.int64List? found = some list) (others : Option (List Int)) :
    (FieldContent.optional FieldContent.ids others).Accepts found := by
  refine .optional h (fun c v hm => ?_) others
  exact hm

end FieldContent

namespace Vertex

variable {v v' : Vertex} {label : VertexLabel} {found : String → Option Json}

def label? : Vertex → Option VertexLabel
  | metaData _ _ => some .metaData
  | document _ _ _ => some .document
  | range _ _ => some .range
  | resultSet _ => some .resultSet
  | moniker _ _ _ _ _ => some .moniker
  | hoverResult _ _ => some .hoverResult
  | packageInformation _ _ _ _ => some .packageInformation
  | bucket kind _ => some (.bucket kind)
  | other => none

/-- The fields of a vertex with their contents. -/
def fields : Vertex → List (String × FieldContent)
  | metaData version projectRoot =>
    [("version", .optional .text version), ("projectRoot", .optional .text projectRoot)]
  | document id uri languageId =>
    [("id", .id id), ("uri", .text uri), ("languageId", .optional .text languageId)]
  | range id span => [("id", .id id), ("start", .position span.start), ("end", .position span.stop)]
  | resultSet id => [("id", .id id)]
  | moniker id scheme identifier kind package =>
    [("id", .id id), ("scheme", .text scheme), ("identifier", .text identifier),
      ("kind", .optional .text kind), ("packageInformationId", .optional .id package)]
  | hoverResult id result => [("id", .id id), ("result", .json result)]
  | packageInformation id name version manager =>
    [("id", .id id), ("name", .text name), ("version", .optional .text version),
      ("manager", .optional .text manager)]
  | bucket _ id => [("id", .id id)]
  | other => []

theorem names_fields (h : v.label? = some label) : v.fields.map Prod.fst = label.fieldNames := by
  cases v <;> cases h <;> rfl

theorem decode?_fields (hl : v.label? = some label) (h : ∀ f ∈ v.fields, f.2.Reads (found f.1))
    (hf : ∀ f ∈ v.fields, f.2.Fits) : label.decode? (label.fieldNames.map found) = some v := by
  cases v with
  | metaData version projectRoot =>
    cases hl
    simp only [fields, List.forall_mem_cons] at h hf
    simp [VertexLabel.fieldNames, VertexLabel.decode?, h.1.optionalText, h.2.1.optionalText]
  | document id uri languageId =>
    cases hl
    simp only [fields, List.forall_mem_cons] at h hf
    simp [VertexLabel.fieldNames, VertexLabel.decode?, h.1.id hf.1, h.2.1.text,
      h.2.2.1.optionalText]
  | range id span =>
    cases hl
    simp only [fields, List.forall_mem_cons] at h hf
    simp [VertexLabel.fieldNames, VertexLabel.decode?, h.1.id hf.1, h.2.1.position hf.2.1,
      h.2.2.1.position hf.2.2.1]
  | resultSet id =>
    cases hl
    simp only [fields, List.forall_mem_cons] at h hf
    simp [VertexLabel.fieldNames, VertexLabel.decode?, h.1.id hf.1]
  | moniker id scheme identifier kind package =>
    cases hl
    simp only [fields, List.forall_mem_cons] at h hf
    simp [VertexLabel.fieldNames, VertexLabel.decode?, h.1.id hf.1, h.2.1.text, h.2.2.1.text,
      h.2.2.2.1.optionalText, h.2.2.2.2.1.optionalId hf.2.2.2.2.1]
  | hoverResult id result =>
    cases hl
    simp only [fields, List.forall_mem_cons] at h hf
    simp [VertexLabel.fieldNames, VertexLabel.decode?, h.1.id hf.1, h.2.1.json]
  | packageInformation id name version manager =>
    cases hl
    simp only [fields, List.forall_mem_cons] at h hf
    simp [VertexLabel.fieldNames, VertexLabel.decode?, h.1.id hf.1, h.2.1.text,
      h.2.2.1.optionalText, h.2.2.2.1.optionalText]
  | bucket kind id =>
    cases hl
    simp only [fields, List.forall_mem_cons] at h hf
    simp [VertexLabel.fieldNames, VertexLabel.decode?, h.1.id hf.1]
  | other => cases hl

theorem accepts_of_decode? (hl : v.label? = some label)
    (h : label.decode? (label.fieldNames.map found) = some v') :
    ∀ f ∈ v.fields, f.2.Accepts (found f.1) := by
  cases v with
  | metaData version projectRoot =>
    simp only [fields, List.forall_mem_cons]
    exact ⟨.optionalText _, .optionalText _, by simp⟩
  | document id uri languageId =>
    cases hl
    simp only [VertexLabel.fieldNames, List.map_cons, List.map_nil, VertexLabel.decode?,
      Option.bind_eq_bind, Option.bind_eq_some_iff] at h
    obtain ⟨a, ha, -⟩ := h
    simp only [fields, List.forall_mem_cons]
    exact ⟨.id ha, .text _, .optionalText _, by simp⟩
  | range id span =>
    cases hl
    simp only [VertexLabel.fieldNames, List.map_cons, List.map_nil, VertexLabel.decode?,
      Option.bind_eq_bind, Option.bind_eq_some_iff] at h
    obtain ⟨a, ha, b, hb, c, hc, -⟩ := h
    simp only [fields, List.forall_mem_cons]
    exact ⟨.id ha, .position hb, .position hc, by simp⟩
  | resultSet id =>
    cases hl
    simp only [VertexLabel.fieldNames, List.map_cons, List.map_nil, VertexLabel.decode?,
      Option.bind_eq_bind, Option.bind_eq_some_iff] at h
    obtain ⟨a, ha, -⟩ := h
    simp only [fields, List.forall_mem_cons]
    exact ⟨.id ha, by simp⟩
  | moniker id scheme identifier kind package =>
    cases hl
    simp only [VertexLabel.fieldNames, List.map_cons, List.map_nil, VertexLabel.decode?,
      Option.bind_eq_bind, Option.bind_eq_some_iff] at h
    obtain ⟨a, ha, b, hb, c, hc, d, hd, e, he, -⟩ := h
    simp only [fields, List.forall_mem_cons]
    exact ⟨.id ha, .text _, .text _, .optionalText _, .optionalId he _, by simp⟩
  | hoverResult id result =>
    cases hl
    simp only [VertexLabel.fieldNames, List.map_cons, List.map_nil, VertexLabel.decode?,
      Option.bind_eq_bind, Option.bind_eq_some_iff] at h
    obtain ⟨a, ha, -⟩ := h
    simp only [fields, List.forall_mem_cons]
    exact ⟨.id ha, .json _, by simp⟩
  | packageInformation id name version manager =>
    cases hl
    simp only [VertexLabel.fieldNames, List.map_cons, List.map_nil, VertexLabel.decode?,
      Option.bind_eq_bind, Option.bind_eq_some_iff] at h
    obtain ⟨a, ha, -⟩ := h
    simp only [fields, List.forall_mem_cons]
    exact ⟨.id ha, .text _, .optionalText _, .optionalText _, by simp⟩
  | bucket kind id =>
    cases hl
    simp only [VertexLabel.fieldNames, List.map_cons, List.map_nil, VertexLabel.decode?,
      Option.bind_eq_bind, Option.bind_eq_some_iff] at h
    obtain ⟨a, ha, -⟩ := h
    simp only [fields, List.forall_mem_cons]
    exact ⟨.id ha, by simp⟩
  | other => cases hl

end Vertex

namespace Edge

variable {e e' : Edge} {label : EdgeLabel} {found : String → Option Json}

def label? : Edge → Option EdgeLabel
  | contains _ _ => some .contains
  | next _ _ => some .next
  | moniker _ _ => some .moniker
  | packageInformation _ _ => some .packageInformation
  | bucket kind _ _ => some (.bucket kind)
  | hover _ _ => some .hover
  | item _ _ _ _ => some .item
  | other => none

/-- The fields of an edge from one id to another. -/
def ends (outV inV : Int) : List (String × FieldContent) := [("outV", .id outV), ("inV", .id inV)]

/-- The fields of an edge with their contents. -/
def fields : Edge → List (String × FieldContent)
  | contains outV inVs => [("outV", .id outV), ("inVs", .ids inVs)]
  | next outV inV => ends outV inV
  | moniker outV inV => ends outV inV
  | packageInformation outV inV => ends outV inV
  | bucket _ outV inV => ends outV inV
  | hover outV inV => ends outV inV
  | item outV inVs inV property =>
    [("outV", .id outV), ("inVs", .optional .ids inVs), ("inV", .optional .id inV),
      ("property", .optional .text property)]
  | other => []

theorem names_fields (h : e.label? = some label) : e.fields.map Prod.fst = label.fieldNames := by
  cases e <;> cases h <;> rfl

theorem ends_found {outV inV : Int} (h : ∀ f ∈ ends outV inV, f.2.Reads (found f.1))
    (hf : ∀ f ∈ ends outV inV, f.2.Fits) :
    Json.required? Json.int64? (found "outV") = some outV ∧
      Json.required? Json.int64? (found "inV") = some inV := by
  simp only [ends, List.forall_mem_cons] at h hf
  exact ⟨h.1.id hf.1, h.2.1.id hf.2.1⟩

theorem decode?_fields (hl : e.label? = some label) (h : ∀ f ∈ e.fields, f.2.Reads (found f.1))
    (hf : ∀ f ∈ e.fields, f.2.Fits) : label.decode? (label.fieldNames.map found) = some e := by
  cases e with
  | contains outV inVs =>
    cases hl
    simp only [fields, List.forall_mem_cons] at h hf
    obtain ⟨v, hv, hlist⟩ := h.2.1.ids hf.2.1
    simp [EdgeLabel.fieldNames, EdgeLabel.decode?, h.1.id hf.1, hv, hlist]
  | item outV inVs inV property =>
    cases hl
    simp only [fields, List.forall_mem_cons] at h hf
    simp [EdgeLabel.fieldNames, EdgeLabel.decode?, h.1.id hf.1, h.2.1.optionalIds hf.2.1,
      h.2.2.1.optionalId hf.2.2.1, h.2.2.2.1.optionalText]
  | other => cases hl
  | _ =>
    cases hl
    obtain ⟨ho, hi⟩ := ends_found h hf
    simp [EdgeLabel.fieldNames, EdgeLabel.decode?, ho, hi]

theorem accepts_of_decode? (hl : e.label? = some label)
    (h : label.decode? (label.fieldNames.map found) = some e') :
    ∀ f ∈ e.fields, f.2.Accepts (found f.1) := by
  cases e with
  | contains outV inVs =>
    cases hl
    simp only [EdgeLabel.fieldNames, List.map_cons, List.map_nil, EdgeLabel.decode?,
      Option.bind_eq_bind] at h
    simp only [fields, List.forall_mem_cons]
    cases hin : found "inVs" with
    | none =>
      rw [hin] at h
      obtain ⟨list, -, h⟩ := Option.bind_eq_some_iff.mp h
      obtain ⟨a, ha, -⟩ := Option.bind_eq_some_iff.mp h
      exact ⟨.id ha, fun _ hv => (by cases hv), by simp⟩
    | some v =>
      rw [hin] at h
      obtain ⟨list, hlist, h⟩ := Option.bind_eq_some_iff.mp h
      obtain ⟨a, ha, -⟩ := Option.bind_eq_some_iff.mp h
      exact ⟨.id ha, .ids hlist, by simp⟩
  | item outV inVs inV property =>
    cases hl
    simp only [EdgeLabel.fieldNames, List.map_cons, List.map_nil, EdgeLabel.decode?,
      Option.bind_eq_bind, Option.bind_eq_some_iff] at h
    obtain ⟨a, ha, b, hb, c, hc, -⟩ := h
    simp only [fields, List.forall_mem_cons]
    exact ⟨.id ha, .optionalIds hb _, .optionalId hc _, .optionalText _, by simp⟩
  | other => cases hl
  | _ =>
    cases hl
    simp only [EdgeLabel.fieldNames, List.map_cons, List.map_nil, EdgeLabel.decode?,
      Option.bind_eq_bind, Option.bind_eq_some_iff] at h
    obtain ⟨a, ha, b, hb, -⟩ := h
    simp only [fields, ends, List.forall_mem_cons]
    exact ⟨.id ha, .id hb, by simp⟩

end Edge

namespace Element

variable {e : Element} {members : List (String × Json)}

/-- The type and the label that a record is written with; none if its label has no meaning. -/
def heading? : Element → Option (String × String)
  | vertex v => v.label?.map fun label => ("vertex", label.name)
  | edge e => e.label?.map fun label => ("edge", label.name)

/-- The fields of a record with their contents. -/
def fields : Element → List (String × FieldContent)
  | vertex v => v.fields
  | edge e => e.fields

theorem ofJson?_vertex {label : VertexLabel}
    (ht : Json.field? members "type" = some (some (.str "vertex")))
    (hl : Json.field? members "label" = some (some (.str label.name))) :
    ofJson? (.obj members) = (Json.fields? label.fieldNames members).bind fun found =>
      (label.decode? found).map vertex := by
  have hlabel : labelOf? VertexLabel.all VertexLabel.name (.str label.name) =
      some (some label) := by
    cases label with
    | bucket kind => cases kind <;> decide
    | _ => decide
  simp [ofJson?, ht, hl, RecordType.ofJson?, decode?, hlabel]

theorem ofJson?_edge {label : EdgeLabel}
    (ht : Json.field? members "type" = some (some (.str "edge")))
    (hl : Json.field? members "label" = some (some (.str label.name))) :
    ofJson? (.obj members) = (Json.fields? label.fieldNames members).bind fun found =>
      (label.decode? found).map edge := by
  have hlabel : labelOf? EdgeLabel.all EdgeLabel.name (.str label.name) =
      some (some label) := by
    cases label with
    | bucket kind => cases kind <;> decide
    | _ => decide
  simp [ofJson?, ht, hl, RecordType.ofJson?, decode?, hlabel]

/-- The heading and the fields of a record. -/
def layout (type label : String) (e : Element) : List (String × FieldContent) :=
  ("type", .text type) :: ("label", .text label) :: e.fields

theorem nodup_layout {type label : String} (h : e.heading? = some (type, label)) :
    ((e.layout type label).map Prod.fst).Nodup := by
  have hv : ∀ l : VertexLabel, ("type" :: "label" :: l.fieldNames).Nodup := by
    intro l
    cases l <;> simp [VertexLabel.fieldNames]
  have he : ∀ l : EdgeLabel, ("type" :: "label" :: l.fieldNames).Nodup := by
    intro l
    cases l <;> simp [EdgeLabel.fieldNames]
  cases e with
  | vertex v =>
    obtain ⟨l, hl, -⟩ := Option.map_eq_some_iff.mp h
    rw [layout, List.map_cons, List.map_cons, fields, Vertex.names_fields hl]
    exact hv l
  | edge e =>
    obtain ⟨l, hl, -⟩ := Option.map_eq_some_iff.mp h
    rw [layout, List.map_cons, List.map_cons, fields, Edge.names_fields hl]
    exact he l

/-- A record is decoded from the fields that are found under its names. -/
theorem ofJson?_obj {type label : String} (hh : e.heading? = some (type, label))
    (ht : Json.field? members "type" = some (some (.str type)))
    (hl : Json.field? members "label" = some (some (.str label)))
    (h : ∀ f ∈ e.fields, ∃ found, Json.field? members f.1 = some found ∧ f.2.Reads found)
    (hf : ∀ f ∈ e.fields, f.2.Fits) : ofJson? (.obj members) = some e := by
  obtain ⟨hall, hreads⟩ := FieldContent.fields?_reads h
  cases e with
  | vertex v =>
    obtain ⟨l, hv, he⟩ := Option.map_eq_some_iff.mp hh
    cases he
    rw [fields, Vertex.names_fields hv] at hall
    rw [ofJson?_vertex ht hl, hall, Option.bind_some, Vertex.decode?_fields hv hreads hf,
      Option.map_some]
  | edge e =>
    obtain ⟨l, hv, he⟩ := Option.map_eq_some_iff.mp hh
    cases he
    rw [fields, Edge.names_fields hv] at hall
    rw [ofJson?_edge ht hl, hall, Option.bind_some, Edge.decode?_fields hv hreads hf,
      Option.map_some]

/-- If a record is decoded, no number was too large for its field. -/
theorem accepts_of_ofJson? {e' : Element} {type label : String}
    (hh : e.heading? = some (type, label))
    (ht : Json.field? members "type" = some (some (.str type)))
    (hl : Json.field? members "label" = some (some (.str label)))
    (h : ofJson? (.obj members) = some e') : ∀ f ∈ e.fields,
      ∃ found, Json.field? members f.1 = some found ∧ f.2.Accepts found := by
  intro f hf
  have hname : f.1 ∈ e.fields.map Prod.fst := List.mem_map_of_mem hf
  cases e with
  | vertex v =>
    obtain ⟨l, hv, he⟩ := Option.map_eq_some_iff.mp hh
    cases he
    rw [ofJson?_vertex ht hl] at h
    obtain ⟨found, hfound, hdecode⟩ := Option.bind_eq_some_iff.mp h
    obtain ⟨v', hv', -⟩ := Option.map_eq_some_iff.mp hdecode
    obtain ⟨rfl, hall⟩ := Json.fields?_some hfound
    rw [fields, Vertex.names_fields hv] at hname
    exact ⟨_, hall f.1 hname, Vertex.accepts_of_decode? hv hv' f hf⟩
  | edge e =>
    obtain ⟨l, hv, he⟩ := Option.map_eq_some_iff.mp hh
    cases he
    rw [ofJson?_edge ht hl] at h
    obtain ⟨found, hfound, hdecode⟩ := Option.bind_eq_some_iff.mp h
    obtain ⟨v', hv', -⟩ := Option.map_eq_some_iff.mp hdecode
    obtain ⟨rfl, hall⟩ := Json.fields?_some hfound
    rw [fields, Edge.names_fields hv] at hname
    exact ⟨_, hall f.1 hname, Edge.accepts_of_decode? hv hv' f hf⟩

end Element

namespace Json

variable {depth : Nat}

/-- An integer is written that is not between the bounds. -/
def Written.Beyond (low high : Int) (w : Written) : Prop :=
  ∃ n i, w = .number n ∧ n.integer? = some i ∧ ¬(low ≤ i ∧ i < high)

theorem exists_of_mapM {α β : Type} {f : α → Option β} {list : List α} {results : List β}
    (h : list.mapM f = some results) {a : α} (ha : a ∈ list) : ∃ b ∈ results, f a = some b := by
  induction list generalizing results with
  | nil => cases ha
  | cons x list ih =>
    rw [List.mapM_cons] at h
    obtain ⟨y, hy, h⟩ := Option.bind_eq_some_iff.mp h
    obtain ⟨ys, hys, h⟩ := Option.bind_eq_some_iff.mp h
    cases h
    rcases List.mem_cons.mp ha with rfl | ha
    · exact ⟨y, List.mem_cons_self, hy⟩
    · obtain ⟨b, hb, hf⟩ := ih hys ha
      exact ⟨b, List.mem_cons_of_mem y hb, hf⟩

theorem Written.Beyond.int64? {w : Written} {v : Json} (h : w.Beyond (-int64Bound) int64Bound)
    (hv : w.value? depth = some v) : Json.int64? v = none ∧ v ≠ .null := by
  obtain ⟨n, i, rfl, hi, hb⟩ := h
  rw [Written.value?] at hv
  rcases n.eq_of_value? hi hv with rfl | ⟨x, rfl⟩
  · exact ⟨if_neg hb, fun hn => by cases hn⟩
  · exact ⟨rfl, fun hn => by cases hn⟩

theorem Written.Beyond.coordinate? {w : Written} {v : Json} (h : w.Beyond 0 word32Bound)
    (hv : w.value? depth = some v) : Json.coordinate? v = none := by
  obtain ⟨n, i, rfl, hi, hb⟩ := h
  rw [Written.value?] at hv
  rcases n.eq_of_value? hi hv with rfl | ⟨x, rfl⟩
  · exact if_neg hb
  · rfl

end Json

namespace FieldContent

/-- A content is written with a number that is too large for it. -/
def Outsize : FieldContent → Json.Written → Prop
  | id _, w => w.Beyond (-int64Bound) int64Bound
  | ids _, w => ∃ items, w = .arr items ∧ ∃ item ∈ items, item.Beyond (-int64Bound) int64Bound
  | position _, w => ∃ members, w = .obj members ∧
      ∃ m ∈ members, m.1.value ∈ ["line", "character"] ∧ m.2.Beyond 0 word32Bound
  | _, _ => False

theorem Outsize.misfits {c : FieldContent} {w : Json.Written} {v : Json} {depth : Nat}
    (h : c.Outsize w) (hv : w.value? depth = some v) : c.Misfits v := by
  cases c with
  | id i => exact Json.Written.Beyond.int64? h hv
  | ids list =>
    obtain ⟨items, rfl, item, hitem, hb⟩ := h
    cases depth with
    | zero => cases hv
    | succ depth =>
      rw [Json.Written.value?, Json.Written.itemValues?_eq] at hv
      obtain ⟨vs, hvs, rfl⟩ := Option.map_eq_some_iff.mp hv
      obtain ⟨u, hu, hvalue⟩ := Json.exists_of_mapM hvs hitem
      refine ⟨?_, fun hn => by cases hn⟩
      cases hlist : Json.int64List? (.arr vs) with
      | none => rfl
      | some found =>
        obtain ⟨k, -, hk⟩ := Json.exists_of_mapM hlist hu
        rw [(hb.int64? hvalue).1] at hk
        cases hk
  | position p =>
    obtain ⟨members, rfl, m, hm, hname, hb⟩ := h
    cases depth with
    | zero => cases hv
    | succ depth =>
      rw [Json.Written.value?, Json.Written.memberValues?_eq] at hv
      obtain ⟨vs, hvs, rfl⟩ := Option.map_eq_some_iff.mp hv
      obtain ⟨u, hu, hvalue⟩ := Json.exists_of_mapM hvs hm
      obtain ⟨x, hx, rfl⟩ := Option.map_eq_some_iff.mp hvalue
      change Json.position? (.obj vs) = none
      cases hp : Json.position? (.obj vs) with
      | none => rfl
      | some q =>
        obtain ⟨hfield, k, hk⟩ := Json.fields_of_position? hp m.1.value hname
        rw [Json.field?_of_mem hu hfield, Json.required?, Option.bind_some,
          hb.coordinate? hx] at hk
        cases hk
  | text s => cases h
  | json w => cases h
  | absent => cases h

end FieldContent

namespace Element

open Json (Written QuotedText)

theorem value?_change (depth : Nat) {before after : List (QuotedText × Written)}
    {name : QuotedText} {w : Written} {v : Json}
    (h : (Written.obj (before ++ (name, w) :: after)).value? (depth + 1) = some v) :
    ∃ first x last, v = .obj (first ++ (name.value, x) :: last) ∧ w.value? depth = some x ∧
      ∀ w', (Written.obj (before ++ (name, w') :: after)).value? (depth + 1) =
        (w'.value? depth).map fun y => .obj (first ++ (name.value, y) :: last) := by
  have hobj : ∀ w', (Written.obj (before ++ (name, w') :: after)).value? (depth + 1) =
      (before.mapM (Written.memberValue? depth)).bind fun first =>
        (w'.value? depth).bind fun y =>
          (after.mapM (Written.memberValue? depth)).map fun last =>
            .obj (first ++ (name.value, y) :: last) := by
    intro w'
    rw [Written.value?, Written.memberValues?_eq, List.mapM_append, List.mapM_cons,
      Written.memberValue?]
    cases before.mapM (Written.memberValue? depth) <;> cases w'.value? depth <;>
      cases after.mapM (Written.memberValue? depth) <;> rfl
  rw [hobj] at h
  obtain ⟨first, hfirst, h⟩ := Option.bind_eq_some_iff.mp h
  obtain ⟨x, hx, h⟩ := Option.bind_eq_some_iff.mp h
  obtain ⟨last, hlast, h⟩ := Option.map_eq_some_iff.mp h
  refine ⟨first, x, last, h.symm, hx, fun w' => ?_⟩
  rw [hobj, hfirst, hlast]
  cases w'.value? depth <;> rfl

theorem heading_found {e : Element} {type label : String} {values : List (String × Json)}
    (hn : ((e.layout type label).map Prod.fst).Nodup)
    (hc : FieldContent.Carries (e.layout type label) values) :
    Json.field? values "type" = some (some (.str type)) ∧
      Json.field? values "label" = some (some (.str label)) := by
  have htext : ∀ name s, (name, FieldContent.text s) ∈ e.layout type label →
      Json.field? values name = some (some (.str s)) := by
    intro name s hin
    obtain ⟨found, hfound, hreads⟩ := hc.field? hn hin
    rcases hreads with ⟨ha, -⟩ | ⟨v, rfl, rfl⟩
    · cases ha
    · exact hfound
  exact ⟨htext _ _ List.mem_cons_self, htext _ _ (List.mem_cons_of_mem _ List.mem_cons_self)⟩

theorem ne_heading {e : Element} {type label name : String} {content : FieldContent}
    (hn : ((e.layout type label).map Prod.fst).Nodup) (hin : (name, content) ∈ e.fields) :
    name ≠ "type" ∧ name ≠ "label" := by
  have hname : name ∈ e.fields.map Prod.fst := List.mem_map_of_mem hin
  simp only [layout, List.map_cons, List.nodup_cons, List.mem_cons, not_or] at hn
  exact ⟨fun he => hn.1.2 (he ▸ hname), fun he => hn.2.1 (he ▸ hname)⟩

/-- A record is decoded from its type, its label and its fields, whatever their order and whatever
stands between them, and from nothing else; and a line on which one of its ids or coordinates is
replaced by an integer that is too large for it is refused. -/
theorem record_among_members {e : Element} {type label : String}
    (hh : e.heading? = some (type, label)) (hf : ∀ f ∈ e.fields, f.2.Fits)
    {members : List (QuotedText × Written)} {values : List (String × Json)}
    (hv : (Written.obj members).value? Json.nestingLimit = some (.obj values))
    (hc : FieldContent.Carries (e.layout type label) values) :
    ofLine? (Written.obj members).bytes = some e ∧
      ∀ before name w after content w', members = before ++ (name, w) :: after →
        (name.value, content) ∈ e.fields → content.Outsize w' →
        ofLine? (Written.obj (before ++ (name, w') :: after)).bytes = none := by
  have hn := nodup_layout hh
  have hlayout : ∀ f ∈ e.fields, f ∈ e.layout type label := fun f hf =>
    List.mem_cons_of_mem _ (List.mem_cons_of_mem _ hf)
  obtain ⟨ht, hl⟩ := heading_found hn hc
  refine ⟨?_, ?_⟩
  · rw [ofLine?, Written.ofBytes?_bytes, hv, Option.bind_some]
    exact ofJson?_obj hh ht hl (fun f hf => hc.field? hn (hlayout f hf)) hf
  · rintro before name w after content w' rfl hin hout
    obtain ⟨first, x, last, hvalues, -, hchange⟩ := value?_change 126 hv
    cases hvalues
    obtain ⟨htype, hlabel⟩ := ne_heading hn hin
    rw [ofLine?, Written.ofBytes?_bytes, show Json.nestingLimit = 126 + 1 from rfl, hchange w']
    cases hy : w'.value? 126 with
    | none => rfl
    | some y =>
      rw [Option.map_some, Option.bind_some]
      cases hd : ofJson? (.obj (first ++ (name.value, y) :: last)) with
      | none => rfl
      | some e' =>
        -- The type and the label are still there, so the field with the number would be accepted.
        rw [← Json.field?_change htype] at ht
        rw [← Json.field?_change hlabel] at hl
        obtain ⟨found, hfound, haccepts⟩ := accepts_of_ofJson? hh ht hl hd _ hin
        have hmem : (name.value, y) ∈ first ++ (name.value, y) :: last := by simp
        exact absurd (hout.misfits hy) (haccepts y (Json.field?_of_mem hmem hfound))

/-- A document on a line with its members in another order, one more among them, one left out, and
an escape that need not be there. -/
def documentLine (id : Int) : Written :=
  .obj [(.of "tag", .arr [.bool true, .null]),
    (.of "uri", .str ⟨"é", ['\\', 'u', '0', '0', 'E', '9'],
      .cons (.code (fun _ => true) (by decide)) .nil⟩),
    (.of "id", .number (.ofInt id)), (.of "label", .str (.of "document")),
    (.of "type", .str (.of "vertex"))]

/-- The document is read with the id 7, and not with an id of `2 ^ 63`. -/
theorem document_among_members :
    ofLine? (documentLine 7).bytes = some (.vertex (.document 7 "é" none)) ∧
      ofLine? (documentLine 9223372036854775808).bytes = none := by
  let shown : List (String × Json) :=
    [("type", .str "vertex"), ("label", .str "document"), ("id", .int 7), ("uri", .str "é")]
  let extras : List (String × Json) := [("tag", .arr [.bool true, .null])]
  have hcarries : FieldContent.Carries (layout "vertex" "document" (.vertex (.document 7 "é" none)))
      (shown ++ extras).reverse :=
    ⟨shown, .shown rfl (.shown rfl (.shown rfl (.shown rfl (.omitted .nil)))), extras,
      List.reverse_perm _, by simp [extras, layout, fields, Vertex.fields]⟩
  have hseven : (Json.Numeral.ofInt 7).value? = some (.int 7) :=
    Json.Numeral.value?_of_integer (Json.Numeral.integer?_ofInt 7)
      (by unfold int64Bound word64Bound; omega)
  have hvalue : (documentLine 7).value? Json.nestingLimit =
      some (.obj (shown ++ extras).reverse) := by
    simp [documentLine, Json.nestingLimit, Written.value?, Written.memberValues?,
      Written.itemValues?, hseven, QuotedText.of, shown, extras]
  have hfits : ∀ f ∈ fields (.vertex (.document 7 "é" none)), f.2.Fits := by
    simp [fields, Vertex.fields, FieldContent.Fits, FieldContent.optional, int64Bound]
  have hbeyond : (Written.number (.ofInt 9223372036854775808)).Beyond (-int64Bound) int64Bound :=
    ⟨_, _, rfl, Json.Numeral.integer?_ofInt _, by unfold int64Bound; omega⟩
  obtain ⟨hread, hrefused⟩ := record_among_members rfl hfits hvalue hcarries
  exact ⟨hread,
    hrefused [_, _] (.of "id") _ [_, _] (.id 7) _ rfl List.mem_cons_self hbeyond⟩

end Element

end SymbolAtlas
