import SymbolAtlas.Proofs.Written
import SymbolAtlas.Settings.Format

namespace SymbolAtlas

namespace Toml

/-- A key that needs no quotes. -/
def IsBareKey (key : String) : Prop := key.toList ≠ [] ∧ ∀ c ∈ key.toList, isKeyChar c = true

instance : DecidablePred IsBareKey := fun key =>
  @instDecidableAnd _ _ _ (List.decidableBAll _ key.toList)

theorem IsBareKey.head {key : String} (h : IsBareKey key) (rest : List Char) :
    ∃ c r, key.toList ++ rest = c :: r ∧ isKeyChar c = true := by
  obtain ⟨c, cs, hc⟩ := List.exists_cons_of_ne_nil h.1
  exact ⟨c, cs ++ rest, by rw [hc, List.cons_append], h.2 c (by rw [hc]; exact List.mem_cons_self)⟩

theorem ne_of_isKeyChar {c d : Char} (h : isKeyChar c = true) (hd : isKeyChar d = false) :
    c ≠ d := by
  rintro rfl
  rw [h] at hd
  cases hd

theorem skipBlank_of_head {cs : List Char} (h : ∀ c ∈ cs.head?, isBlank c = false) :
    skipBlank cs = cs := by
  cases cs with
  | nil => rfl
  | cons c r => exact List.dropWhile_cons_of_neg (by rw [h c rfl]; exact Bool.false_ne_true)

theorem isBlank_of_isKeyChar {c : Char} (h : isKeyChar c = true) : isBlank c = false := by
  have hblank : c ≠ ' ' := ne_of_isKeyChar h (by decide)
  have htab : c ≠ '\t' := ne_of_isKeyChar h (by decide)
  simp [isBlank, hblank, htab]

theorem readKeyPart_bare {key : String} (h : IsBareKey key) {rest : List Char}
    (hend : ∀ c ∈ rest.head?, isKeyChar c = false) :
    readKeyPart (key.toList ++ rest) = some (key, rest) := by
  obtain ⟨c, r, hc, hkey⟩ := h.head rest
  have hstop : rest.takeWhile isKeyChar = [] ∧ rest.dropWhile isKeyChar = rest := by
    cases rest with
    | nil => exact ⟨rfl, rfl⟩
    | cons d _ => simp [hend d rfl]
  have htake : (key.toList ++ rest).takeWhile isKeyChar = key.toList := by
    rw [List.takeWhile_append_of_pos h.2, hstop.1, List.append_nil]
  have hdrop : (key.toList ++ rest).dropWhile isKeyChar = rest := by
    rw [List.dropWhile_append_of_pos h.2, hstop.2]
  unfold readKeyPart
  split
  next he => exact absurd (List.cons.inj (hc.symm.trans he)).1 (ne_of_isKeyChar hkey (by decide))
  next he => exact absurd (List.cons.inj (hc.symm.trans he)).1 (ne_of_isKeyChar hkey (by decide))
  next =>
    rw [htake, hdrop]
    split
    next he => exact absurd he h.1
    next => rw [String.ofList_toList]

theorem readPathFrom_bare (fuel : Nat) {key : String} (h : IsBareKey key) {rest : List Char}
    (hend : ∀ c ∈ rest.head?, isKeyChar c = false)
    (hdot : ∀ c ∈ (skipBlank rest).head?, c ≠ '.') :
    readPathFrom (fuel + 1) (key.toList ++ rest) = some ([key], skipBlank rest) := by
  obtain ⟨c, r, hc, hkey⟩ := h.head rest
  have hblank : skipBlank (key.toList ++ rest) = key.toList ++ rest := by
    refine skipBlank_of_head fun d hd => ?_
    rw [hc] at hd
    cases Option.some.inj hd
    exact isBlank_of_isKeyChar hkey
  simp only [readPathFrom, hblank, readKeyPart_bare h hend, Option.bind_eq_bind,
    Option.bind_some]
  split
  next he => exact absurd rfl (hdot '.' (by rw [he]; rfl))
  next => rfl

theorem readPath_bare {key : String} (h : IsBareKey key) {rest : List Char}
    (hend : ∀ c ∈ rest.head?, isKeyChar c = false)
    (hdot : ∀ c ∈ (skipBlank rest).head?, c ≠ '.') :
    readPath (key.toList ++ rest) = some ([key], skipBlank rest) :=
  readPathFrom_bare 78 h hend hdot

section Number

variable {ds : List Char} (hd : ∀ c ∈ ds, isDigit c = true)

include hd

theorem readMoreDigits_line (rest : List Char) :
    readMoreDigits 10 (ds ++ '\n' :: rest) = some (ds, '\n' :: rest) := by
  induction ds with
  | nil => simp [readMoreDigits, digitValue?]
  | cons c ds ih =>
    rw [List.forall_mem_cons] at hd
    have hc : (digitValue? 10 c).isSome = true := hd.1
    have hne : c ≠ '_' := by
      rintro rfl
      revert hc
      decide
    rw [List.cons_append, readMoreDigits, if_pos hc, ih hd.2]
    · rfl
    · exact fun _ _ he => absurd he hne
    · exact fun he => absurd he hne

theorem readFixed_line {count low high n : Nat} {rest r : List Char}
    (h : readFixed count low high (ds ++ '\n' :: rest) = some (n, r)) :
    ∀ c ∈ r.head?, isDigit c = true ∨ c = '\n' := by
  simp only [readFixed, Bool.and_eq_true, decide_eq_true_eq] at h
  split at h
  next hall =>
    obtain ⟨hlen, hall⟩ := hall
    have hle : count ≤ ds.length := by
      refine Nat.le_of_not_lt fun hlt => ?_
      have hmem : '\n' ∈ (ds ++ '\n' :: rest).take count := by
        rw [List.take_append, List.mem_append]
        obtain ⟨k, hk⟩ := Nat.exists_eq_succ_of_ne_zero (Nat.sub_ne_zero_of_lt hlt)
        rw [hk]
        exact .inr List.mem_cons_self
      have := List.all_eq_true.mp hall _ hmem
      revert this
      decide
    split at h
    next =>
      cases h
      intro c hc
      rw [List.drop_append, Nat.sub_eq_zero_of_le hle, List.drop_zero] at hc
      cases hdrop : ds.drop count with
      | nil =>
        rw [hdrop] at hc
        exact .inr (Option.some.inj hc).symm
      | cons d r =>
        rw [hdrop] at hc
        have hmem : c ∈ ds.drop count := by
          rw [hdrop]
          exact List.mem_of_head? hc
        exact .inl (hd c (List.mem_of_mem_drop hmem))
    next => cases h
  next => cases h

theorem expect_line {count low high n : Nat} {rest r : List Char} {c : Char}
    (h : readFixed count low high (ds ++ '\n' :: rest) = some (n, r)) (hc : isDigit c = false)
    (hn : c ≠ '\n') : expect c r = none := by
  have hhead := readFixed_line hd h
  cases r with
  | nil => rfl
  | cons d r =>
    refine if_neg ?_
    rintro rfl
    rcases hhead d rfl with hdig | hnew
    · rw [hc] at hdig
      cases hdig
    · exact hn hnew

/-- Neither a date nor a time begins with digits to the end of the line. -/
theorem readDatetime_line (rest : List Char) : readDatetime (ds ++ '\n' :: rest) = none := by
  have hdate : skipDate (ds ++ '\n' :: rest) = none := by
    unfold skipDate
    cases hf : readFixed 4 0 9999 (ds ++ '\n' :: rest) with
    | none => rfl
    | some p =>
      have hexpect : expect '-' p.2 = none := expect_line hd hf (by decide) (by decide)
      simp [hexpect]
  have htime : skipTime (ds ++ '\n' :: rest) = none := by
    unfold skipTime
    cases hf : readFixed 2 0 23 (ds ++ '\n' :: rest) with
    | none => rfl
    | some p =>
      have hexpect : expect ':' p.2 = none := expect_line hd hf (by decide) (by decide)
      simp [hexpect]
  simp only [readDatetime, hdate, htime, Option.map_none]

theorem readDecimalDigits_line (hne : ds ≠ []) (hplain : ds = ['0'] ∨ ds.head? ≠ some '0')
    (rest : List Char) : readDecimalDigits (ds ++ '\n' :: rest) = some (ds, '\n' :: rest) := by
  rcases hplain with rfl | hplain
  · rfl
  · obtain ⟨c, ds, rfl⟩ := List.exists_cons_of_ne_nil hne
    rw [List.forall_mem_cons] at hd
    have hzero : c ≠ '0' := fun he => hplain (congrArg some he)
    have hc : (digitValue? 10 c).isSome = true := hd.1
    rw [List.cons_append, readDecimalDigits, readSpacedDigits, if_pos hc,
      readMoreDigits_line hd.2]
    · rfl
    · exact fun _ he => hzero (List.cons.inj he).1

theorem head_line (hne : ds ≠ []) (rest : List Char) :
    ∃ c r, ds ++ '\n' :: rest = c :: r ∧ isDigit c = true := by
  obtain ⟨c, ds, rfl⟩ := List.exists_cons_of_ne_nil hne
  exact ⟨c, ds ++ '\n' :: rest, rfl, hd c List.mem_cons_self⟩

omit hd in
theorem ne_of_isDigit {c d : Char} (h : isDigit c = true) (hd : isDigit d = false) : c ≠ d := by
  rintro rfl
  rw [h] at hd
  cases hd

theorem readSign_line (hne : ds ≠ []) (rest : List Char) :
    readSign (ds ++ '\n' :: rest) = (false, ds ++ '\n' :: rest) := by
  obtain ⟨c, r, hc, hdig⟩ := head_line hd hne rest
  have hplus : c ≠ '+' := ne_of_isDigit hdig (by decide)
  have hminus : c ≠ '-' := ne_of_isDigit hdig (by decide)
  rw [hc, readSign]
  · exact fun _ he => hplus (List.cons.inj he).1
  · exact fun _ he => hminus (List.cons.inj he).1

theorem readFloat_line (hne : ds ≠ []) (hplain : ds = ['0'] ∨ ds.head? ≠ some '0')
    (rest : List Char) : readFloat (ds ++ '\n' :: rest) = none := by
  obtain ⟨c, r, hc, hdig⟩ := head_line hd hne rest
  unfold readFloat
  rw [readSign_line hd hne]
  dsimp only
  split
  next he => exact absurd (List.cons.inj (hc.symm.trans he)).1 (ne_of_isDigit hdig (by decide))
  next he => exact absurd (List.cons.inj (hc.symm.trans he)).1 (ne_of_isDigit hdig (by decide))
  next => simp [readDecimalDigits_line hd hne hplain, readFraction, readExponent]

theorem readInteger_line (hne : ds ≠ []) (hplain : ds = ['0'] ∨ ds.head? ≠ some '0')
    (hfit : digitsValue 10 0 ds < int64Bound) (rest : List Char) :
    readInteger (ds ++ '\n' :: rest) =
      some (.scalar (.int (digitsValue 10 0 ds)), '\n' :: rest) := by
  -- A base would need a zero with a letter behind it.
  have hbase : ∀ mark r, isDigit mark = false → mark ≠ '\n' →
      ds ++ '\n' :: rest ≠ '0' :: mark :: r := by
    intro mark r hmark hnew he
    rcases hplain with rfl | hplain
    · exact hnew (List.cons.inj (List.cons.inj he).2).1.symm
    · obtain ⟨c, ds, rfl⟩ := List.exists_cons_of_ne_nil hne
      exact hplain (congrArg some (List.cons.inj he).1)
  have hvalue : int64? false (digitsValue 10 0 ds) =
      some (.scalar (.int (digitsValue 10 0 ds))) := by
    simp [int64?, hfit]
  unfold readInteger
  split
  next he => exact absurd he (hbase 'x' _ (by decide) (by decide))
  next he => exact absurd he (hbase 'o' _ (by decide) (by decide))
  next he => exact absurd he (hbase 'b' _ (by decide) (by decide))
  next => simp [readSign_line hd hne, readDecimalDigits_line hd hne hplain, hvalue]

end Number

theorem digit_bounds {c : Char} (h : isDigit c = true) : 48 ≤ c.toNat ∧ c.toNat ≤ 57 := by
  unfold isDigit digitValue? at h
  grind

theorem isKeyChar_of_isDigit {c : Char} (h : isDigit c = true) : isKeyChar c = true := by
  have hdigit : c.isDigit = true := by
    simpa [Char.isDigit, UInt32.le_iff_toNat_le] using digit_bounds h
  simp [isKeyChar, Char.isAlphanum, hdigit]

/-- The ways in which settings spell values. -/
inductive Spells : Scalar → List Char → Prop where
  | count {n : Nat} (h : n < int64Bound) : Spells (.int n) (RealFormat.natDigits n)
  | yes : Spells (.bool true) ['t', 'r', 'u', 'e']
  | no : Spells (.bool false) ['f', 'a', 'l', 's', 'e']

theorem natDigits_plain (n : Nat) :
    RealFormat.natDigits n = ['0'] ∨ (RealFormat.natDigits n).head? ≠ some '0' := by
  rcases Nat.eq_zero_or_pos n with rfl | h
  · exact .inl rfl
  · exact .inr (Json.head?_natDigits h)

namespace Spells

variable {v : Scalar} {chars : List Char}

theorem head (h : Spells v chars) (rest : List Char) :
    ∃ c r, chars ++ rest = c :: r ∧ isKeyChar c = true := by
  cases h with
  | @count n _ =>
    obtain ⟨c, ds, hc⟩ := List.exists_cons_of_ne_nil (Nat.toDigits_ne_nil (n := n) (b := 10))
    have hmem : c ∈ RealFormat.natDigits n := by
      rw [RealFormat.natDigits, hc]
      exact List.mem_cons_self
    refine ⟨c, ds ++ rest, by rw [RealFormat.natDigits, hc, List.cons_append], ?_⟩
    exact isKeyChar_of_isDigit (Json.isDigit_natDigits n c hmem)
  | yes => exact ⟨_, _, rfl, by decide⟩
  | no => exact ⟨_, _, rfl, by decide⟩

theorem readScalar (h : Spells v chars) (rest : List Char) :
    readScalar (chars ++ '\n' :: rest) = some (.scalar v, '\n' :: rest) := by
  cases h with
  | @count n h =>
    have hd := Json.isDigit_natDigits n
    have hne : RealFormat.natDigits n ≠ [] := Nat.toDigits_ne_nil
    have hplain := natDigits_plain n
    have hint := readInteger_line hd hne hplain (by rwa [Json.digitsValue_natDigits]) rest
    rw [Json.digitsValue_natDigits] at hint
    obtain ⟨c, r, hc, hdig⟩ := head_line hd hne rest
    have hother : ∀ mark, isDigit mark = false → ∀ r',
        RealFormat.natDigits n ++ '\n' :: rest ≠ mark :: r' := by
      intro mark hmark r' he
      exact ne_of_isDigit hdig hmark (List.cons.inj (hc.symm.trans he)).1
    unfold Toml.readScalar
    split
    next he => exact absurd he (hother 't' (by decide) _)
    next he => exact absurd he (hother 'f' (by decide) _)
    next he => exact absurd he (hother '\x22' (by decide) _)
    next he => exact absurd he (hother '\x27' (by decide) _)
    next => rw [readDatetime_line hd, readFloat_line hd hne hplain, hint]; rfl
  | yes => rfl
  | no => rfl

theorem readValue (h : Spells v chars) (rest : List Char) :
    readValue nestingLimit (chars ++ '\n' :: rest) = some (.scalar v, '\n' :: rest) := by
  obtain ⟨c, r, hc, hkey⟩ := h.head ('\n' :: rest)
  change Toml.readValue (78 + 1) _ = _
  unfold Toml.readValue
  dsimp only
  split
  next he => exact absurd (List.cons.inj (hc.symm.trans he)).1 (ne_of_isKeyChar hkey (by decide))
  next he => exact absurd (List.cons.inj (hc.symm.trans he)).1 (ne_of_isKeyChar hkey (by decide))
  next => exact h.readScalar rest

end Spells

/-- What lines are read as, if there are enough steps for all of them. -/
def Reads (cs : List Char) (entries : List Entry) : Prop :=
  ∀ fuel, cs.length < fuel → readEntries fuel cs = some entries

theorem Reads.nil : Reads [] [] := by
  intro fuel hf
  obtain ⟨fuel, rfl⟩ := Nat.exists_eq_succ_of_ne_zero (Nat.ne_of_gt hf)
  rfl

theorem Reads.blank {rest : List Char} {entries : List Entry} (h : Reads rest entries) :
    Reads ('\n' :: rest) entries := by
  intro fuel hf
  rw [List.length_cons] at hf
  obtain ⟨fuel, rfl⟩ := Nat.exists_eq_succ_of_ne_zero (Nat.ne_zero_of_lt hf)
  exact h fuel (by omega)

theorem Reads.entry {c : Char} {line rest : List Char} {entry : Entry} {entries : List Entry}
    (hc : isKeyChar c = true ∨ c = '[')
    (hline : readEntry (c :: (line ++ rest)) = some (entry, rest)) (h : Reads rest entries) :
    Reads (c :: (line ++ rest)) (entry :: entries) := by
  intro fuel hf
  rw [List.length_cons, List.length_append] at hf
  obtain ⟨fuel, rfl⟩ := Nat.exists_eq_succ_of_ne_zero (Nat.ne_zero_of_lt hf)
  have hblank : isBlank c = false := by
    rcases hc with hkey | rfl
    · exact isBlank_of_isKeyChar hkey
    · decide
  have hnot : ¬(c = '#' ∨ c = '\n' ∨ c = '\r') := by
    rcases hc with hkey | rfl
    · rintro (rfl | rfl | rfl) <;> revert hkey <;> decide
    · decide
  have hskip : skipBlank (c :: (line ++ rest)) = c :: (line ++ rest) :=
    skipBlank_of_head fun d hd => Option.some.inj hd ▸ hblank
  rw [readEntries, hskip]
  simp only [if_neg hnot, hline, h fuel (by omega), Option.bind_eq_bind, Option.bind_some,
    Option.pure_def]

theorem reads_header {name : String} (hname : IsBareKey name) {rest : List Char}
    {entries : List Entry} (h : Reads rest entries) :
    Reads ('[' :: (name.toList ++ [']', '\n'] ++ rest)) (.header [name] :: entries) := by
  refine .entry (.inr rfl) ?_ h
  rw [List.append_assoc]
  obtain ⟨c, r, hc, hkey⟩ := hname.head ([']', '\n'] ++ rest)
  have hpath : readPath (name.toList ++ ([']', '\n'] ++ rest)) =
      some ([name], [']', '\n'] ++ rest) :=
    readPath_bare hname (by simp [isKeyChar]) (by simp [skipBlank, isBlank])
  unfold readEntry
  split
  next he =>
    refine absurd ?_ (ne_of_isKeyChar hkey (d := '[') (by decide))
    exact (List.cons.inj (hc.symm.trans (List.cons.inj he).2)).1
  next he =>
    rw [← (List.cons.inj he).2, hpath]
    rfl
  next hn => exact absurd rfl (hn _)

/-- The characters of a line that assigns a value. -/
def assignment (key : String) (chars : List Char) : List Char :=
  key.toList ++ ([' ', '=', ' '] ++ (chars ++ ['\n']))

theorem readAssignment_line {key : String} (hkey : IsBareKey key) {v : Scalar}
    {chars : List Char} (hv : Spells v chars) (rest : List Char) :
    readAssignment (readValue nestingLimit) (assignment key chars ++ rest) =
      some (([key], .scalar v), '\n' :: rest) := by
  have hsplit : assignment key chars ++ rest =
      key.toList ++ ([' ', '=', ' '] ++ (chars ++ '\n' :: rest)) := by
    simp [assignment]
  have hpath : readPath (key.toList ++ ([' ', '=', ' '] ++ (chars ++ '\n' :: rest))) =
      some ([key], ['=', ' '] ++ (chars ++ '\n' :: rest)) :=
    readPath_bare hkey (by simp [isKeyChar]) (by simp [skipBlank, isBlank])
  obtain ⟨d, r, hd, hdkey⟩ := hv.head ('\n' :: rest)
  have hskip : skipBlank (' ' :: (chars ++ '\n' :: rest)) = chars ++ '\n' :: rest := by
    rw [hd]
    change skipBlank (d :: r) = d :: r
    exact skipBlank_of_head fun e he => Option.some.inj he ▸ isBlank_of_isKeyChar hdkey
  unfold readAssignment
  rw [hsplit, hpath]
  simp [expect, hskip, hv.readValue rest]

theorem readEntry_assignment {key : String} (hkey : IsBareKey key) {v : Scalar}
    {chars : List Char} (hv : Spells v chars) (rest : List Char) :
    readEntry (assignment key chars ++ rest) = some (.assign [key] (.scalar v), rest) := by
  obtain ⟨c, r, hc, hkeyChar⟩ := hkey.head ([' ', '=', ' '] ++ (chars ++ ['\n']) ++ rest)
  have hhead : assignment key chars ++ rest = c :: r := by
    rw [← hc, assignment, List.append_assoc]
  have hbracket : c ≠ '[' := ne_of_isKeyChar hkeyChar (by decide)
  unfold readEntry
  split
  next he => exact absurd (List.cons.inj (hhead.symm.trans he)).1 hbracket
  next he => exact absurd (List.cons.inj (hhead.symm.trans he)).1 hbracket
  next =>
    rw [readAssignment_line hkey hv]
    rfl

theorem reads_assignment {key : String} (hkey : IsBareKey key) {v : Scalar} {chars : List Char}
    (hv : Spells v chars) {rest : List Char} {entries : List Entry} (h : Reads rest entries) :
    Reads (assignment key chars ++ rest) (.assign [key] (.scalar v) :: entries) := by
  obtain ⟨c, line, hline, hc⟩ := hkey.head ([' ', '=', ' '] ++ (chars ++ ['\n']))
  have hentry := readEntry_assignment hkey hv rest
  rw [assignment, hline, List.cons_append] at hentry ⊢
  exact .entry (.inl hc) hentry h

/-- A section: its name and what it assigns to its keys. -/
structure Section where
  name : String
  members : List (String × Scalar)

namespace Section

def entries (s : Section) : List Entry :=
  .header [s.name] :: s.members.map fun m => .assign [m.1] (.scalar m.2)

/-- The table of a section, under its name. -/
def table (s : Section) : String × Node :=
  (s.name, .table .header (s.members.map fun m => (m.1, .scalar m.2)))

end Section

/-- Lines that assign values one by one. -/
inductive Lines : List (String × Scalar) → List Char → Prop where
  | nil : Lines [] []
  | cons {key : String} {v : Scalar} {chars text : List Char} {members : List (String × Scalar)}
      (hkey : IsBareKey key) (hv : Spells v chars) (h : Lines members text) :
      Lines ((key, v) :: members) (assignment key chars ++ text)

theorem Lines.append {members members' : List (String × Scalar)} {text text' : List Char}
    (h : Lines members text) (h' : Lines members' text') :
    Lines (members ++ members') (text ++ text') := by
  induction h with
  | nil => exact h'
  | cons hkey hv _ ih =>
    rw [List.append_assoc]
    exact .cons hkey hv ih

theorem Lines.reads {members : List (String × Scalar)} {text : List Char} (h : Lines members text)
    {rest : List Char} {entries : List Entry} (hr : Reads rest entries) :
    Reads (text ++ rest) (members.map (fun m => .assign [m.1] (.scalar m.2)) ++ entries) := by
  induction h with
  | nil => exact hr
  | cons hkey hv _ ih =>
    rw [List.append_assoc]
    exact reads_assignment hkey hv ih

theorem reads_section {s : Section} (hname : IsBareKey s.name) {text : List Char}
    (h : Lines s.members text) {rest : List Char} {entries : List Entry}
    (hr : Reads rest entries) :
    Reads ('[' :: (s.name.toList ++ [']', '\n'] ++ (text ++ rest))) (s.entries ++ entries) :=
  reads_header hname (h.reads hr)

theorem get?_eq_none_iff {members : Members} {key : String} :
    members.get? key = none ↔ key ∉ members.map Prod.fst := by
  rw [Members.get?, List.lookup_eq_none_iff]
  simp only [List.mem_map, not_exists, not_and, bne_iff_ne, ne_eq]
  exact forall_congr' fun p => imp_congr_right fun _ => not_congr eq_comm

theorem get?_append_self {members : Members} {key : String} (h : key ∉ members.map Prod.fst)
    (node : Node) : Members.get? (members ++ [(key, node)]) key = some node := by
  have hnone : List.lookup key members = none := get?_eq_none_iff.mpr h
  rw [Members.get?, List.lookup_append, hnone]
  simp

theorem replace_append_self {members : Members} {key : String} (h : key ∉ members.map Prod.fst)
    (node node' : Node) :
    Members.replace (members ++ [(key, node)]) key node' = members ++ [(key, node')] := by
  have hsame : members.map (fun m => if m.1 = key then (key, node') else m) = members := by
    refine (List.map_congr_left fun m hm => ?_).trans (List.map_id members)
    exact if_neg fun he => h (by rw [← he]; exact List.mem_map_of_mem hm)
  simp [Members.replace, hsame]

namespace Document

variable {members : Members} {name : String}

theorem add?_assign (hname : name ∉ members.map Prod.fst) {inner : Members} {key : String}
    (hkey : key ∉ inner.map Prod.fst) (v : Scalar) :
    add? ⟨members ++ [(name, .table .header inner)], [name]⟩ (.assign [key] (.scalar v)) =
      some ⟨members ++ [(name, .table .header (inner ++ [(key, .scalar v)]))], [name]⟩ := by
  have hassign : inner.assignPath [key] (.scalar v) = some (inner ++ [(key, .scalar v)]) := by
    simp [Members.assignPath, Members.assign, get?_eq_none_iff.mpr hkey]
  simp [add?, Value.node?, Members.within, get?_append_self hname, hassign,
    replace_append_self hname]

theorem foldlM_assign (hname : name ∉ members.map Prod.fst) {inner : Members}
    {pairs : List (String × Scalar)} (hkeys : (inner.map Prod.fst ++ pairs.map Prod.fst).Nodup) :
    (pairs.map fun m => Entry.assign [m.1] (.scalar m.2)).foldlM add?
        ⟨members ++ [(name, .table .header inner)], [name]⟩ =
      some ⟨members ++ [(name, .table .header (inner ++ pairs.map fun m => (m.1, .scalar m.2)))],
        [name]⟩ := by
  induction pairs generalizing inner with
  | nil => simp
  | cons m pairs ih =>
    have hkey : m.1 ∉ inner.map Prod.fst := fun hm =>
      (List.nodup_append.mp hkeys).2.2 _ hm _ List.mem_cons_self rfl
    rw [List.map_cons, List.foldlM_cons, add?_assign hname hkey]
    change List.foldlM add? _ _ = _
    rw [ih (by simpa using hkeys)]
    simp

theorem foldlM_section {s : Section} (hname : s.name ∉ members.map Prod.fst)
    (hkeys : (s.members.map Prod.fst).Nodup) (current : Path) :
    s.entries.foldlM add? ⟨members, current⟩ = some ⟨members ++ [s.table], [s.name]⟩ := by
  have hopen : add? ⟨members, current⟩ (.header [s.name]) =
      some ⟨members ++ [(s.name, .table .header [])], [s.name]⟩ := by
    simp [add?, Members.atHeader, Members.openTable, get?_eq_none_iff.mpr hname]
  rw [Section.entries, List.foldlM_cons, hopen]
  exact foldlM_assign hname hkeys

theorem foldlM_sections {sections : List Section} {members : Members}
    (hnames : (members.map Prod.fst ++ sections.map Section.name).Nodup)
    (hkeys : ∀ s ∈ sections, (s.members.map Prod.fst).Nodup) (current : Path) :
    ∃ last, (sections.flatMap Section.entries).foldlM add? ⟨members, current⟩ =
      some ⟨members ++ sections.map Section.table, last⟩ := by
  induction sections generalizing members current with
  | nil => exact ⟨current, by simp⟩
  | cons s sections ih =>
    have hname : s.name ∉ members.map Prod.fst := fun hm =>
      (List.nodup_append.mp hnames).2.2 _ hm _ List.mem_cons_self rfl
    rw [List.forall_mem_cons] at hkeys
    rw [List.flatMap_cons, List.foldlM_append, foldlM_section hname hkeys.1]
    have hnext : ((members ++ [s.table]).map Prod.fst ++ sections.map Section.name).Nodup := by
      simpa [Section.table] using hnames
    obtain ⟨last, hlast⟩ := ih hnext hkeys.2 [s.name]
    exact ⟨last, by simpa using hlast⟩

/-- Sections with names and keys of their own become one table each. -/
theorem ofEntries?_sections {sections : List Section} (hnames : (sections.map Section.name).Nodup)
    (hkeys : ∀ s ∈ sections, (s.members.map Prod.fst).Nodup) :
    ofEntries? (sections.flatMap Section.entries) = some (sections.map Section.table) := by
  have hstart : (([] : Members).map Prod.fst ++ sections.map Section.name).Nodup := hnames
  obtain ⟨last, hlast⟩ := foldlM_sections hstart hkeys []
  simp [ofEntries?, empty, hlast]

end Document

end Toml

end SymbolAtlas
