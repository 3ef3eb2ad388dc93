import SymbolAtlas.Settings.Format

namespace SymbolAtlas

namespace Toml

/-- An integer is below the bound of 64 bits; other values always fit. -/
def Scalar.Fits : Scalar → Prop
  | .int i => i < int64Bound
  | _ => True

inductive Value.Fits : Value → Prop where
  | scalar {v : Scalar} (h : v.Fits) : Value.Fits (.scalar v)
  | array {items : List Value} (h : ∀ v ∈ items, Value.Fits v) : Value.Fits (.array items)
  | inline {members : List (Path × Value)} (h : ∀ m ∈ members, Value.Fits m.2) :
      Value.Fits (.inline members)

inductive Node.Fits : Node → Prop where
  | scalar {v : Scalar} (h : v.Fits) : Node.Fits (.scalar v)
  | array {items : List Node} (h : ∀ n ∈ items, Node.Fits n) : Node.Fits (.array items)
  | table {origin : Origin} {members : Members} (h : ∀ m ∈ members, Node.Fits m.2) :
      Node.Fits (.table origin members)
  | tables {items : List Members} (h : ∀ members ∈ items, ∀ m ∈ members, Node.Fits m.2) :
      Node.Fits (.tables items)

def Members.Fit (members : Members) : Prop := ∀ m ∈ members, m.2.Fits

/-- A change that keeps what fits. -/
def Members.Keeps (change : Members → Option Members) : Prop :=
  ∀ members members', change members = some members' → members.Fit → members'.Fit

def Entry.Fits : Entry → Prop
  | .assign _ value => value.Fits
  | _ => True

/-- A reader of values that fit. -/
def ReadsFitting (value : Reader Value) : Prop := ∀ cs v rest, value cs = some (v, rest) → v.Fits

theorem int64?_fits {negative : Bool} {n : Nat} {v : Value} (h : int64? negative n = some v) :
    v.Fits := by
  unfold int64? at h
  split at h
  · split at h
    next =>
      cases h
      exact .scalar (by simp [Scalar.Fits, int64Bound]; omega)
    next => cases h
  · split at h
    next hn =>
      cases h
      exact .scalar (Int.ofNat_lt.mpr hn)
    next => cases h

theorem readBasedInteger_fits (base : Nat) : ReadsFitting (readBasedInteger base) := by
  intro cs v rest h
  simp only [readBasedInteger, Option.bind_eq_bind, Option.bind_eq_some_iff] at h
  obtain ⟨_, -, value, hvalue, h⟩ := h
  cases h
  exact int64?_fits hvalue

theorem readInteger_fits : ReadsFitting readInteger := by
  intro cs v rest h
  unfold readInteger at h
  split at h
  next => exact readBasedInteger_fits 16 _ v rest h
  next => exact readBasedInteger_fits 8 _ v rest h
  next => exact readBasedInteger_fits 2 _ v rest h
  next =>
    simp only [Option.bind_eq_bind, Option.bind_eq_some_iff] at h
    obtain ⟨_, -, value, hvalue, h⟩ := h
    cases h
    exact int64?_fits hvalue

theorem readFloat_fits : ReadsFitting readFloat := by
  intro cs v rest h
  unfold readFloat at h
  dsimp only at h
  split at h
  next => cases h; exact .scalar trivial
  next => cases h; exact .scalar trivial
  next =>
    simp only [Option.bind_eq_bind, Option.bind_eq_some_iff] at h
    obtain ⟨_, -, _, -, _, -, h⟩ := h
    split at h
    next => cases h
    next =>
      split at h
      next => cases h
      next => cases h; exact .scalar trivial

theorem readDatetime_fits : ReadsFitting readDatetime := by
  intro cs v rest h
  have hmap {r : Option (List Char)}
      (h : (r.map fun r => (Value.scalar .datetime, r)) = some (v, rest)) : v.Fits := by
    obtain ⟨_, -, h⟩ := Option.map_eq_some_iff.mp h
    cases h
    exact .scalar trivial
  unfold readDatetime at h
  split at h
  next =>
    split at h
    next =>
      split at h
      next =>
        split at h
        next => exact hmap h
        next => cases h; exact .scalar trivial
      next => cases h; exact .scalar trivial
    next => cases h; exact .scalar trivial
  next => exact hmap h

theorem readScalar_fits : ReadsFitting readScalar := by
  intro cs v rest h
  unfold readScalar at h
  split at h
  next => cases h; exact .scalar trivial
  next => cases h; exact .scalar trivial
  next =>
    obtain ⟨p, -, h⟩ := Option.map_eq_some_iff.mp h
    cases h
    exact .scalar trivial
  next =>
    obtain ⟨p, -, h⟩ := Option.map_eq_some_iff.mp h
    cases h
    exact .scalar trivial
  next =>
    simp only [Option.orElse_eq_orElse, Option.orElse_eq_or, Option.or_eq_some_iff] at h
    rcases h with h | ⟨-, h⟩
    · exact readDatetime_fits _ v rest h
    · rcases h with h | ⟨-, h⟩
      · exact readFloat_fits _ v rest h
      · exact readInteger_fits _ v rest h

section Containers

variable {value : Reader Value} (hvalue : ReadsFitting value)

include hvalue

theorem readArrayItems_fits {fuel : Nat} {cs rest : List Char} {items : List Value}
    (h : readArrayItems value fuel cs = some (items, rest)) : ∀ v ∈ items, v.Fits := by
  induction fuel generalizing cs items rest with
  | zero => cases h
  | succ fuel ih =>
    unfold readArrayItems at h
    split at h
    next =>
      cases h
      exact List.forall_mem_nil _
    next =>
      simp only [Option.bind_eq_bind, Option.bind_eq_some_iff] at h
      obtain ⟨⟨v, r⟩, hv, h⟩ := h
      have hfits : v.Fits := hvalue _ v r hv
      dsimp only at h
      split at h
      next =>
        obtain ⟨⟨vs, r⟩, hvs, h⟩ := Option.bind_eq_some_iff.mp h
        cases h
        exact List.forall_mem_cons.mpr ⟨hfits, ih hvs⟩
      next =>
        cases h
        exact List.forall_mem_singleton.mpr hfits
      next => cases h

theorem readAssignment_fits {cs rest : List Char} {m : Path × Value}
    (h : readAssignment value cs = some (m, rest)) : m.2.Fits := by
  simp only [readAssignment, Option.bind_eq_bind, Option.bind_eq_some_iff] at h
  obtain ⟨⟨path, r⟩, -, r', -, ⟨v, r''⟩, hv, h⟩ := h
  cases h
  exact hvalue _ v r'' hv

theorem readInlineMembers_fits {fuel : Nat} {cs rest : List Char} {members : List (Path × Value)}
    (h : readInlineMembers value fuel cs = some (members, rest)) :
    ∀ m ∈ members, m.2.Fits := by
  induction fuel generalizing cs members rest with
  | zero => cases h
  | succ fuel ih =>
    simp only [readInlineMembers, Option.bind_eq_bind, Option.bind_eq_some_iff] at h
    obtain ⟨⟨m, r⟩, hm, h⟩ := h
    have hfits : m.2.Fits := readAssignment_fits hvalue hm
    dsimp only at h
    split at h
    next =>
      obtain ⟨⟨ms, r⟩, hms, h⟩ := Option.bind_eq_some_iff.mp h
      cases h
      exact List.forall_mem_cons.mpr ⟨hfits, ih hms⟩
    next =>
      cases h
      exact List.forall_mem_singleton.mpr hfits
    next => cases h

theorem readInline_fits {cs rest : List Char} {members : List (Path × Value)}
    (h : readInline value cs = some (members, rest)) : ∀ m ∈ members, m.2.Fits := by
  unfold readInline at h
  split at h
  next =>
    cases h
    exact List.forall_mem_nil _
  next => exact readInlineMembers_fits hvalue h

end Containers

theorem readValue_fits (depth : Nat) : ReadsFitting (readValue depth) := by
  induction depth with
  | zero =>
    intro cs v rest h
    unfold readValue at h
    split at h
    next => cases h
    next => cases h
    next => exact readScalar_fits _ v rest h
  | succ depth ih =>
    intro cs v rest h
    unfold readValue at h
    split at h
    next =>
      obtain ⟨p, hp, h⟩ := Option.map_eq_some_iff.mp h
      cases h
      exact .array (readArrayItems_fits ih hp)
    next =>
      obtain ⟨p, hp, h⟩ := Option.map_eq_some_iff.mp h
      cases h
      exact .inline (readInline_fits ih hp)
    next => exact readScalar_fits _ v rest h

theorem readEntry_fits {cs rest : List Char} {entry : Entry}
    (h : readEntry cs = some (entry, rest)) : entry.Fits := by
  unfold readEntry at h
  split at h
  next =>
    simp only [Option.bind_eq_bind, Option.bind_eq_some_iff] at h
    obtain ⟨_, -, _, -, _, -, _, -, h⟩ := h
    cases h
    trivial
  next =>
    simp only [Option.bind_eq_bind, Option.bind_eq_some_iff] at h
    obtain ⟨_, -, _, -, _, -, h⟩ := h
    cases h
    trivial
  next =>
    simp only [Option.bind_eq_bind, Option.bind_eq_some_iff] at h
    obtain ⟨⟨m, r⟩, hm, _, -, h⟩ := h
    cases h
    exact readAssignment_fits (readValue_fits nestingLimit) hm

theorem readEntries_fits {fuel : Nat} {cs : List Char} {entries : List Entry}
    (h : readEntries fuel cs = some entries) : ∀ e ∈ entries, e.Fits := by
  induction fuel generalizing cs entries with
  | zero => cases h
  | succ fuel ih =>
    unfold readEntries at h
    split at h
    next =>
      cases h
      exact List.forall_mem_nil _
    next =>
      split at h
      next =>
        obtain ⟨r, -, h⟩ := Option.bind_eq_some_iff.mp h
        exact ih h
      next =>
        obtain ⟨⟨entry, r⟩, hentry, h⟩ := Option.bind_eq_some_iff.mp h
        obtain ⟨entries, hentries, h⟩ := Option.bind_eq_some_iff.mp h
        cases h
        exact List.forall_mem_cons.mpr ⟨readEntry_fits hentry, ih hentries⟩

theorem entries?_fits {text : String} {entries : List Entry} (h : entries? text = some entries) :
    ∀ e ∈ entries, e.Fits :=
  readEntries_fits h

namespace Members

variable {members : Members}

theorem Fit.get? (h : members.Fit) {key : String} {node : Node}
    (hnode : members.get? key = some node) : node.Fits := by
  obtain ⟨before, after, he, -⟩ := List.lookup_eq_some_iff.mp hnode
  have hmem : (key, node) ∈ members := by
    rw [he, List.mem_append]
    exact .inr List.mem_cons_self
  exact h _ hmem

theorem Fit.append_one (h : members.Fit) (key : String) {node : Node} (hnode : node.Fits) :
    Fit (members ++ [(key, node)]) :=
  List.forall_mem_append.mpr ⟨h, List.forall_mem_singleton.mpr hnode⟩

theorem Fit.replace (h : members.Fit) (key : String) {node : Node} (hnode : node.Fits) :
    (members.replace key node).Fit := by
  intro m hm
  obtain ⟨m', hm', rfl⟩ := List.mem_map.mp hm
  split
  · exact hnode
  · exact h m' hm'

theorem Fit.inner (h : members.Fit) {key : String} {origin : Origin} {inner : Members}
    (hget : members.get? key = some (.table origin inner)) : inner.Fit := by
  cases h.get? hget with
  | table hinner => exact hinner

theorem Fit.items (h : members.Fit) {key : String} {items : List Members}
    (hget : members.get? key = some (.tables items)) : ∀ m ∈ items, Fit m := by
  cases h.get? hget with
  | tables hitems => exact hitems

theorem changeLast_fit {change : Members → Option Members} (hchange : Keeps change)
    {items items' : List Members} (h : changeLast change items = some items')
    (hitems : ∀ m ∈ items, Fit m) : ∀ m ∈ items', Fit m := by
  induction items generalizing items' with
  | nil => cases h
  | cons m rest ih =>
    rw [List.forall_mem_cons] at hitems
    cases rest with
    | nil =>
      obtain ⟨m', hm', rfl⟩ := Option.map_eq_some_iff.mp h
      exact List.forall_mem_singleton.mpr (hchange m m' hm' hitems.1)
    | cons m' rest =>
      obtain ⟨rest', hrest, rfl⟩ := Option.map_eq_some_iff.mp h
      exact List.forall_mem_cons.mpr ⟨hitems.1, ih hrest hitems.2⟩

theorem Fit.change_table (h : members.Fit) {change : Members → Option Members}
    (hchange : Keeps change) {key : String} {origin : Origin} {inner inner' : Members}
    (hget : members.get? key = some (.table origin inner)) (hinner : change inner = some inner') :
    (members.replace key (.table origin inner')).Fit :=
  h.replace key (.table (hchange inner inner' hinner (h.inner hget)))

theorem Fit.change_tables (h : members.Fit) {change : Members → Option Members}
    (hchange : Keeps change) {key : String} {items items' : List Members}
    (hget : members.get? key = some (.tables items))
    (hitems : changeLast change items = some items') :
    (members.replace key (.tables items')).Fit :=
  h.replace key (.tables (changeLast_fit hchange hitems (h.items hget)))

theorem assign_keeps (key : String) {node : Node} (hnode : node.Fits) (path : Path) :
    Keeps (assign key node path) := by
  -- The hypothesis holds of any table, so also of the empty one that is made for a missing step.
  induction path with
  | nil =>
    intro members members' h hfit
    unfold assign at h
    split at h
    next => cases h
    next =>
      cases h
      exact hfit.append_one key hnode
  | cons step path ih =>
    intro members members' h hfit
    unfold assign at h
    split at h
    next =>
      obtain ⟨inner, hinner, rfl⟩ := Option.map_eq_some_iff.mp h
      exact hfit.append_one step (.table (ih [] inner hinner (List.forall_mem_nil _)))
    next hget =>
      split at h
      next =>
        obtain ⟨inner, hinner, rfl⟩ := Option.map_eq_some_iff.mp h
        exact hfit.change_table ih hget hinner
      next => cases h
    next hget =>
      split at h
      next => cases h
      next =>
        obtain ⟨items, hitems, rfl⟩ := Option.map_eq_some_iff.mp h
        exact hfit.change_tables ih hget hitems
    next => cases h

theorem assignPath_keeps (path : Path) {node : Node} (hnode : node.Fits) :
    Keeps (assignPath path node) := by
  intro members members' h hfit
  unfold assignPath at h
  split at h
  next => cases h
  next => exact assign_keeps _ hnode _ members members' h hfit

theorem atHeader_keeps {enter : String → Members → Option Members}
    (henter : ∀ key, Keeps (enter key)) (path : Path) : Keeps (atHeader enter path) := by
  induction path with
  | nil =>
    intro members members' h
    cases h
  | cons step path ih =>
    intro members members' h hfit
    unfold atHeader at h
    split at h
    next he => cases he
    next he =>
      cases he
      exact henter _ _ members' h hfit
    next he =>
      cases he
      split at h
      next =>
        obtain ⟨inner, hinner, rfl⟩ := Option.map_eq_some_iff.mp h
        exact hfit.append_one step (.table (ih [] inner hinner (List.forall_mem_nil _)))
      next hget =>
        split at h
        next => cases h
        next =>
          obtain ⟨inner, hinner, rfl⟩ := Option.map_eq_some_iff.mp h
          exact hfit.change_table ih hget hinner
      next hget =>
        obtain ⟨items, hitems, rfl⟩ := Option.map_eq_some_iff.mp h
        exact hfit.change_tables ih hget hitems
      next => cases h

theorem openTable_keeps (key : String) : Keeps (openTable key) := by
  intro members members' h hfit
  unfold openTable at h
  split at h
  next =>
    cases h
    exact hfit.append_one key (.table (List.forall_mem_nil _))
  next hget =>
    cases h
    exact hfit.replace key (.table (hfit.inner hget))
  next => cases h

theorem openTables_keeps (key : String) : Keeps (openTables key) := by
  intro members members' h hfit
  have hone : ∀ m ∈ [([] : Members)], Fit m := List.forall_mem_singleton.mpr (List.forall_mem_nil _)
  unfold openTables at h
  split at h
  next =>
    cases h
    exact hfit.append_one key (.tables hone)
  next hget =>
    cases h
    exact hfit.replace key (.tables (List.forall_mem_append.mpr ⟨hfit.items hget, hone⟩))
  next => cases h

theorem within_keeps {change : Members → Option Members} (hchange : Keeps change) (path : Path) :
    Keeps (within change path) := by
  induction path with
  | nil => exact hchange
  | cons step path ih =>
    intro members members' h hfit
    unfold within at h
    split at h
    next hget =>
      obtain ⟨inner, hinner, rfl⟩ := Option.map_eq_some_iff.mp h
      exact hfit.change_table ih hget hinner
    next hget =>
      obtain ⟨items, hitems, rfl⟩ := Option.map_eq_some_iff.mp h
      exact hfit.change_tables ih hget hitems
    next => cases h

end Members

theorem itemNodes?_fits {items : List Value}
    (hitems : ∀ v ∈ items, ∀ node, v.node? = some node → node.Fits) {nodes : List Node}
    (h : itemNodes? items = some nodes) : ∀ n ∈ nodes, n.Fits := by
  induction items generalizing nodes with
  | nil =>
    cases h
    exact List.forall_mem_nil _
  | cons v items ih =>
    rw [List.forall_mem_cons] at hitems
    unfold itemNodes? at h
    obtain ⟨node, hnode, h⟩ := Option.bind_eq_some_iff.mp h
    obtain ⟨nodes, hnodes, h⟩ := Option.bind_eq_some_iff.mp h
    cases h
    exact List.forall_mem_cons.mpr ⟨hitems.1 node hnode, ih hitems.2 hnodes⟩

theorem memberNodes?_fits {members : List (Path × Value)}
    (hmembers : ∀ m ∈ members, ∀ node, m.2.node? = some node → node.Fits) {done done' : Members}
    (h : memberNodes? members done = some done') (hdone : done.Fit) : done'.Fit := by
  induction members generalizing done with
  | nil =>
    cases h
    exact hdone
  | cons m members ih =>
    rw [List.forall_mem_cons] at hmembers
    unfold memberNodes? at h
    obtain ⟨node, hnode, h⟩ := Option.bind_eq_some_iff.mp h
    obtain ⟨next, hnext, h⟩ := Option.bind_eq_some_iff.mp h
    have hfits : node.Fits := hmembers.1 node hnode
    exact ih hmembers.2 h (Members.assignPath_keeps m.1 hfits done next hnext hdone)

theorem Value.Fits.node? {v : Value} (hv : v.Fits) {node : Node} (h : v.node? = some node) :
    node.Fits := by
  induction hv generalizing node with
  | scalar hv =>
    cases h
    exact .scalar hv
  | array _ ih =>
    unfold Value.node? at h
    obtain ⟨nodes, hnodes, rfl⟩ := Option.map_eq_some_iff.mp h
    exact .array (itemNodes?_fits (fun v hv node => ih v hv) hnodes)
  | inline _ ih =>
    unfold Value.node? at h
    obtain ⟨members, hmembers, rfl⟩ := Option.map_eq_some_iff.mp h
    exact .table (memberNodes?_fits (fun m hm node => ih m hm) hmembers (List.forall_mem_nil _))

namespace Document

theorem add?_fit {doc doc' : Document} {entry : Entry} (hentry : entry.Fits)
    (h : doc.add? entry = some doc') (hdoc : doc.members.Fit) : doc'.members.Fit := by
  cases entry with
  | header path =>
    obtain ⟨m, hm, rfl⟩ := Option.map_eq_some_iff.mp h
    exact Members.atHeader_keeps Members.openTable_keeps path _ m hm hdoc
  | arrayHeader path =>
    obtain ⟨m, hm, rfl⟩ := Option.map_eq_some_iff.mp h
    exact Members.atHeader_keeps Members.openTables_keeps path _ m hm hdoc
  | assign path value =>
    obtain ⟨node, hnode, h⟩ := Option.bind_eq_some_iff.mp h
    obtain ⟨m, hm, h⟩ := Option.bind_eq_some_iff.mp h
    cases h
    have hkeeps := Members.assignPath_keeps path (Value.Fits.node? hentry hnode)
    exact Members.within_keeps hkeeps doc.current _ m hm hdoc

theorem foldlM_fit {entries : List Entry} (hentries : ∀ e ∈ entries, e.Fits) {doc doc' : Document}
    (h : entries.foldlM add? doc = some doc') (hdoc : doc.members.Fit) : doc'.members.Fit := by
  induction entries generalizing doc with
  | nil =>
    cases h
    exact hdoc
  | cons entry entries ih =>
    rw [List.forall_mem_cons] at hentries
    obtain ⟨next, hnext, h⟩ := Option.bind_eq_some_iff.mp h
    exact ih hentries.2 h (add?_fit hentries.1 hnext hdoc)

theorem ofEntries?_fit {entries : List Entry} (hentries : ∀ e ∈ entries, e.Fits)
    {members : Members} (h : ofEntries? entries = some members) : members.Fit := by
  obtain ⟨doc, hdoc, rfl⟩ := Option.map_eq_some_iff.mp h
  exact foldlM_fit hentries hdoc (List.forall_mem_nil _)

end Document

theorem settings?_fits {first second : String} {node : Option Node}
    (hnode : ∀ n ∈ node, n.Fits) {found : Option Node × Option Node}
    (h : Node.settings? first second node = some found) :
    (∀ n ∈ found.1, n.Fits) ∧ ∀ n ∈ found.2, n.Fits := by
  unfold Node.settings? at h
  split at h
  next =>
    cases h
    exact ⟨fun _ hn => (nomatch hn), fun _ hn => (nomatch hn)⟩
  next =>
    cases h
    cases hnode _ rfl with
    | table hmembers =>
      exact ⟨fun n => Members.Fit.get? hmembers, fun n => Members.Fit.get? hmembers⟩
  next =>
    cases h
    cases hnode _ rfl with
    | array hitems =>
      exact ⟨fun n hn => hitems n (List.mem_of_getElem? hn),
        fun n hn => hitems n (List.mem_of_getElem? hn)⟩
  next =>
    cases h
    exact ⟨fun _ hn => (nomatch hn), fun _ hn => (nomatch hn)⟩
  next => cases h

theorem count?_fits {node : Option Node} (hnode : ∀ n ∈ node, n.Fits) {count : Option Nat}
    (h : Node.count? node = some count) : ∀ n ∈ count, n < int64Bound := by
  unfold Node.count? at h
  split at h
  next =>
    cases h
    exact fun _ hn => nomatch hn
  next =>
    cases h
    intro n hn
    cases hn
    cases hnode _ rfl with
    | scalar hfits => exact Int.ofNat_lt.mp hfits
  next => cases h

end Toml

end SymbolAtlas
