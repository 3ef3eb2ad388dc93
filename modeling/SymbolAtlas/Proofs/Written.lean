import SymbolAtlas.Json.Reader

/-!
Compact JSON texts as trees, which say how every text is escaped and how every number is given.
-/

namespace SymbolAtlas

namespace Json

/-- A hexadecimal digit with a letter in either case. -/
def hexChar (upper : Bool) (n : Nat) : Char :=
  Char.ofNat (if n < 10 then 48 + n else if upper then 55 + n else 87 + n)

/-- An escape with the code of a unit in four digits; `upper` says which letters are capital. -/
def unitEscape (upper : Nat → Bool) (n : Nat) : List Char :=
  ['\\', 'u', hexChar (upper 3) (n / 4096), hexChar (upper 2) (n / 256 % 16),
    hexChar (upper 1) (n / 16 % 16), hexChar (upper 0) (n % 16)]

/-- The marks of the short escapes with what they stand for. -/
def shortEscapes : List (Char × Char) :=
  [('\x22', '\x22'), ('\\', '\\'), ('/', '/'), ('b', '\x08'), ('f', '\x0c'), ('n', '\n'),
    ('r', '\r'), ('t', '\t')]

/-- The ways to write one character inside a quoted text: as it is, by a short escape, by its
code, or by the codes of two surrogates. -/
inductive SpellsChar (c : Char) : List Char → Prop where
  | plain (hq : c ≠ '\x22') (hb : c ≠ '\\') (hc : 32 ≤ c.toNat) : SpellsChar c [c]
  | short {mark : Char} (h : (mark, c) ∈ shortEscapes) : SpellsChar c ['\\', mark]
  | code (upper : Nat → Bool) (h : c.toNat < 0x10000) : SpellsChar c (unitEscape upper c.toNat)
  | pair (upper upper' : Nat → Bool) (h : 0x10000 ≤ c.toNat) :
      SpellsChar c (unitEscape upper (0xD800 + (c.toNat - 0x10000) / 1024)
        ++ unitEscape upper' (0xDC00 + (c.toNat - 0x10000) % 1024))

/-- The ways to write characters one after the other. -/
inductive SpellsText : List Char → List Char → Prop where
  | nil : SpellsText [] []
  | cons {c : Char} {text piece rest : List Char} (hc : SpellsChar c piece)
      (hr : SpellsText text rest) : SpellsText (c :: text) (piece ++ rest)

/-- A quoted text as written. -/
structure QuotedText where
  value : String
  inner : List Char
  spells : SpellsText value.toList inner

def QuotedText.chars (q : QuotedText) : List Char := '\x22' :: (q.inner ++ ['\x22'])

theorem spellsChar_escapeChar (c : Char) : SpellsChar c (escapeChar c) := by
  have hunit : ∀ n < 32, unitEscape (fun _ => false) n =
      ['\\', 'u', '0', '0', hexDigit (n / 16), hexDigit (n % 16)] := by decide
  unfold escapeChar
  split
  next h => subst h; exact .short (by decide)
  next hq =>
    split
    next h => subst h; exact .short (by decide)
    next hb =>
      iterate 5
        split
        next h => subst h; exact .short (by decide)
      split
      next h =>
        rw [← hunit c.toNat h]
        exact .code _ (by omega)
      next h => exact .plain hq hb (by omega)

/-- A text with no more escapes than it needs. -/
def QuotedText.of (s : String) : QuotedText where
  value := s
  inner := s.toList.flatMap escapeChar
  spells := by
    induction s.toList with
    | nil => exact .nil
    | cons c cs ih => exact .cons (spellsChar_escapeChar c) ih

theorem digitValue?_hexChar : ∀ upper, ∀ n < 16, digitValue? 16 (hexChar upper n) = some n := by
  decide

theorem codeUnit?_unitEscape (upper : Nat → Bool) {n : Nat} (h : n < 0x10000) :
    codeUnit? (hexChar (upper 3) (n / 4096)) (hexChar (upper 2) (n / 256 % 16))
      (hexChar (upper 1) (n / 16 % 16)) (hexChar (upper 0) (n % 16)) = some n := by
  have h3 := digitValue?_hexChar (upper 3) (n / 4096) (by omega)
  have h2 := digitValue?_hexChar (upper 2) (n / 256 % 16) (by omega)
  have h1 := digitValue?_hexChar (upper 1) (n / 16 % 16) (by omega)
  have h0 := digitValue?_hexChar (upper 0) (n % 16) (by omega)
  have hsum : n / 4096 * 4096 + n / 256 % 16 * 256 + n / 16 % 16 * 16 + n % 16 = n := by omega
  simp only [codeUnit?, h3, h2, h1, h0, Option.bind_eq_bind, Option.bind_some, Option.pure_def,
    hsum]

theorem toNat_valid (c : Char) : c.toNat < 0xD800 ∨ 0xDFFF < c.toNat ∧ c.toNat < 0x110000 := c.valid

theorem readEscape_short {mark c : Char} (h : (mark, c) ∈ shortEscapes) (rest : List Char) :
    readEscape (mark :: rest) = some (c, rest) := by
  simp only [shortEscapes, List.mem_cons, Prod.mk.injEq, List.not_mem_nil, or_false] at h
  rcases h with ⟨rfl, rfl⟩ | ⟨rfl, rfl⟩ | ⟨rfl, rfl⟩ | ⟨rfl, rfl⟩ | ⟨rfl, rfl⟩ | ⟨rfl, rfl⟩ |
    ⟨rfl, rfl⟩ | ⟨rfl, rfl⟩
  all_goals rfl

theorem readEscape_code (upper : Nat → Bool) {c : Char} (h : c.toNat < 0x10000)
    (rest : List Char) :
    readEscape ((unitEscape upper c.toNat).tail ++ rest) = some (c, rest) := by
  have hv := toNat_valid c
  have hl : isLowSurrogate c.toNat = false := by simp [isLowSurrogate]; omega
  have hh : isHighSurrogate c.toNat = false := by simp [isHighSurrogate]; omega
  simp only [unitEscape, List.tail_cons, List.cons_append, List.nil_append, readEscape,
    codeUnit?_unitEscape upper h, hl, hh, Char.ofNat_toNat, Bool.false_eq_true, if_false]

theorem readEscape_surrogates (upper upper' : Nat → Bool) {u w : Nat}
    (hu : isHighSurrogate u = true) (hw : isLowSurrogate w = true) (rest : List Char) :
    readEscape ((unitEscape upper u).tail ++ (unitEscape upper' w ++ rest)) =
      some (Char.ofNat (0x10000 + (u - 0xD800) * 1024 + (w - 0xDC00)), rest) := by
  have hub : 0xD800 ≤ u ∧ u < 0xDC00 := by simpa [isHighSurrogate] using hu
  have hwb : 0xDC00 ≤ w ∧ w < 0xE000 := by simpa [isLowSurrogate] using hw
  have hnot : isLowSurrogate u = false := by simp [isLowSurrogate]; omega
  have hhigh := codeUnit?_unitEscape upper (n := u) (by omega)
  have hlow := codeUnit?_unitEscape upper' (n := w) (by omega)
  simp only [unitEscape, List.tail_cons, List.cons_append, List.nil_append, readEscape, hhigh,
    hlow, hnot, hu, hw, Bool.false_eq_true, if_false, if_true]

theorem readEscape_pair (upper upper' : Nat → Bool) {c : Char} (h : 0x10000 ≤ c.toNat)
    (rest : List Char) :
    readEscape ((unitEscape upper (0xD800 + (c.toNat - 0x10000) / 1024)).tail
      ++ (unitEscape upper' (0xDC00 + (c.toNat - 0x10000) % 1024) ++ rest)) = some (c, rest) := by
  have hv := toNat_valid c
  obtain ⟨u, hu⟩ : ∃ u, u = 0xD800 + (c.toNat - 0x10000) / 1024 := ⟨_, rfl⟩
  obtain ⟨w, hw⟩ : ∃ w, w = 0xDC00 + (c.toNat - 0x10000) % 1024 := ⟨_, rfl⟩
  have hhigh : isHighSurrogate u = true := by simp [isHighSurrogate]; omega
  have hlow : isLowSurrogate w = true := by simp [isLowSurrogate]; omega
  have hcode : 0x10000 + (u - 0xD800) * 1024 + (w - 0xDC00) = c.toNat := by omega
  rw [← hu, ← hw, readEscape_surrogates upper upper' hhigh hlow, hcode, Char.ofNat_toNat]

theorem readStringBody_escape {cs rest : List Char} {c : Char}
    (h : readEscape cs = some (c, rest)) :
    readStringBody ('\\' :: cs) = (readStringBody rest).map fun p => (c :: p.1, p.2) := by
  rw [readStringBody, if_neg (by decide), if_pos rfl]
  split
  next hn => rw [h] at hn; cases hn
  next e r he =>
    rw [h] at he
    cases he
    cases readStringBody rest <;> rfl

theorem readStringBody_spelled {c : Char} {piece : List Char} (h : SpellsChar c piece)
    (rest : List Char) :
    readStringBody (piece ++ rest) =
      (readStringBody rest).map fun p => (c :: p.1, p.2) := by
  cases h with
  | plain hq hb hc =>
    rw [List.singleton_append, readStringBody, if_neg hq, if_neg hb, if_neg (by omega)]
    cases readStringBody rest <;> rfl
  | short h => exact readStringBody_escape (readEscape_short h rest)
  | code upper h => exact readStringBody_escape (readEscape_code upper h rest)
  | pair upper upper' h =>
    rw [List.append_assoc]
    exact readStringBody_escape (readEscape_pair upper upper' h rest)

theorem SpellsText.read {text inner : List Char} (h : SpellsText text inner) (rest : List Char) :
    readStringBody (inner ++ '\x22' :: rest) = some (text, rest) := by
  induction h with
  | nil => rw [List.nil_append, readStringBody, if_pos rfl]
  | cons hc _ ih => rw [List.append_assoc, readStringBody_spelled hc, ih]; rfl

theorem QuotedText.read (q : QuotedText) (rest : List Char) :
    readString (q.chars ++ rest) = some (q.value, rest) := by
  have hbody : readStringBody (q.inner ++ ['\x22'] ++ rest) = some (q.value.toList, rest) := by
    rw [List.append_assoc]
    exact q.spells.read rest
  rw [chars, List.cons_append, readString, hbody, Option.map_some, String.ofList_toList]

/-- Decimal digits, at least one of them. -/
structure Digits where
  chars : List Char
  digits : ∀ c ∈ chars, isDigit c = true
  nonempty : chars ≠ []

/-- An exponent as written: its mark, its sign if it has one, and its digits. -/
structure Exponent where
  capital : Bool
  sign : Option Bool
  digits : Digits

namespace Exponent

def chars (e : Exponent) : List Char :=
  (if e.capital then 'E' else 'e') ::
    (e.sign.elim [] (fun negative => [if negative then '-' else '+']) ++ e.digits.chars)

def value (e : Exponent) : Int :=
  if e.sign = some true then -(digitsValue 10 0 e.digits.chars : Int)
  else digitsValue 10 0 e.digits.chars

end Exponent

/-- A number as written; a zero in front stands alone. -/
structure Numeral where
  negative : Bool
  whole : Digits
  fraction : Option Digits
  exponent : Option Exponent
  plain : whole.chars = ['0'] ∨ whole.chars.head? ≠ some '0'

namespace Numeral

def chars (n : Numeral) : List Char :=
  RealFormat.sign n.negative ++ (n.whole.chars
    ++ (n.fraction.elim [] (fun f => '.' :: f.chars) ++ n.exponent.elim [] Exponent.chars))

def parts (n : Numeral) : NumberText :=
  ⟨n.negative, n.whole.chars, n.fraction.map Digits.chars, n.exponent.map Exponent.value⟩

/-- The integer that is written, if it is one. -/
def integer? (n : Numeral) : Option Int :=
  match n.fraction, n.exponent with
  | none, none =>
    some (if n.negative then -(digitsValue 10 0 n.whole.chars : Int)
      else digitsValue 10 0 n.whole.chars)
  | _, _ => none

/-- The value of a number.  An integer of 64 bits stands for itself; what else there is, negative
zero included, becomes a real, unless it is too large. -/
def value? (n : Numeral) : Option Json :=
  match n.integer? with
  | some i =>
    if -(int64Bound : Int) ≤ i ∧ i < word64Bound ∧ ¬(n.negative = true ∧ i = 0) then some (.int i)
    else n.parts.value?
  | none => n.parts.value?

end Numeral

theorem le_digitsValue (acc : Nat) (ds : List Char) : acc ≤ digitsValue 10 acc ds := by
  induction ds generalizing acc with
  | nil => exact Nat.le_refl acc
  | cons c ds ih =>
    have := ih (acc * 10 + (digitValue? 10 c).getD 0)
    change acc ≤ digitsValue 10 (acc * 10 + (digitValue? 10 c).getD 0) ds
    omega

theorem absorb_of_lt {acc : Nat} {ds : List Char} (h : digitsValue 10 acc ds < word64Bound) :
    absorb acc ds = (digitsValue 10 acc ds, ds.length, 0) := by
  induction ds generalizing acc with
  | nil => rfl
  | cons c ds ih =>
    have hrest := ih h
    have hlt := Nat.lt_of_le_of_lt (le_digitsValue _ ds) h
    rw [absorb, if_pos hlt, hrest]
    rfl

theorem absorb_of_left {acc : Nat} {ds : List Char} (h : (absorb acc ds).2.2 = 0) :
    (absorb acc ds).1 = digitsValue 10 acc ds := by
  induction ds generalizing acc with
  | nil => rfl
  | cons c ds ih =>
    unfold absorb at h ⊢
    dsimp only at h ⊢
    by_cases hlt : acc * 10 + (digitValue? 10 c).getD 0 < word64Bound
    · rw [if_pos hlt] at h ⊢
      exact ih h
    · rw [if_neg hlt] at h
      simp at h

namespace Numeral

variable {n : Numeral} {i : Int}

theorem parts_of_integer (h : n.integer? = some i) :
    n.parts = ⟨n.negative, n.whole.chars, none, none⟩ ∧
      i = if n.negative then -(digitsValue 10 0 n.whole.chars : Int)
        else digitsValue 10 0 n.whole.chars := by
  unfold integer? at h
  split at h
  next hf he => exact ⟨by rw [parts, hf, he]; rfl, (Option.some.inj h).symm⟩
  next => cases h

theorem value?_of_integer (h : n.integer? = some i)
    (hr : -(int64Bound : Int) ≤ i ∧ i < word64Bound ∧ ¬(n.negative = true ∧ i = 0)) :
    n.value? = some (.int i) := by
  rw [value?, h]
  simp only [if_pos hr]

/-- The reader and the value of a number agree. -/
theorem parts_value? (n : Numeral) : n.parts.value? = n.value? := by
  unfold value?
  split
  next i hi =>
    split
    next hr =>
      obtain ⟨hp, he⟩ := parts_of_integer hi
      rw [hp]
      cases hn : n.negative with
      | false =>
        rw [hn] at he
        simp only [Bool.false_eq_true, if_false] at he
        have hlt : digitsValue 10 0 n.whole.chars < word64Bound := by omega
        simp [NumberText.value?, absorb_of_lt hlt, he]
      | true =>
        rw [hn] at he hr
        simp only [if_true] at he
        have hb : int64Bound < word64Bound := by decide
        have hlt : digitsValue 10 0 n.whole.chars < word64Bound := by omega
        have hz : ¬(digitsValue 10 0 n.whole.chars = 0 ∨
            int64Bound < digitsValue 10 0 n.whole.chars) := by
          simp only [true_and] at hr
          omega
        simp [NumberText.value?, absorb_of_lt hlt, he, hz]
    next => rfl
  next => rfl

theorem eq_of_value? {v : Json} (h : n.integer? = some i) (hv : n.value? = some v) :
    v = .int i ∨ ∃ x, v = .real n.negative x := by
  obtain ⟨hp, he⟩ := parts_of_integer h
  rw [← parts_value?, hp] at hv
  have hreal : ∀ significand e, (Binary64.ofDecimal? significand e).map
      (fun x => Json.real n.negative x) = some v → ∃ x, v = .real n.negative x := by
    intro significand e hm
    obtain ⟨x, -, hx⟩ := Option.map_eq_some_iff.mp hm
    exact ⟨x, hx.symm⟩
  simp only [NumberText.value?] at hv
  split at hv
  next => exact .inr (hreal _ _ hv)
  next hleft =>
    have hs : (absorb 0 n.whole.chars).1 = digitsValue 10 0 n.whole.chars :=
      absorb_of_left (Nat.eq_zero_of_not_pos hleft)
    rw [hs] at hv
    split at hv
    next hn =>
      split at hv
      next => exact .inr (hreal _ _ hv)
      next => exact .inl (by rw [he, if_pos hn, ← Option.some.inj hv])
    next hn => exact .inl (by rw [he, if_neg hn, ← Option.some.inj hv])

end Numeral

theorem digitValue?_digitChar : ∀ d < 10, digitValue? 10 (Nat.digitChar d) = some d := by decide

theorem isDigit_digitChar {d : Nat} (h : d < 10) : isDigit (Nat.digitChar d) = true := by
  rw [isDigit, digitValue?_digitChar d h]
  rfl

theorem natDigits_step {n : Nat} (h : 10 ≤ n) :
    RealFormat.natDigits n = RealFormat.natDigits (n / 10) ++ [Nat.digitChar (n % 10)] :=
  Nat.toDigits_of_base_le (by omega) h

theorem natDigits_one {n : Nat} (h : n < 10) : RealFormat.natDigits n = [Nat.digitChar n] :=
  Nat.toDigits_of_lt_base h

theorem isDigit_natDigits (n : Nat) : ∀ c ∈ RealFormat.natDigits n, isDigit c = true := by
  induction n using Nat.strongRecOn with
  | ind n ih =>
    intro c hc
    by_cases hn : n < 10
    · rw [natDigits_one hn, List.mem_singleton] at hc
      rw [hc]
      exact isDigit_digitChar hn
    · rw [natDigits_step (by omega), List.mem_append, List.mem_singleton] at hc
      rcases hc with hc | rfl
      · exact ih (n / 10) (by omega) c hc
      · exact isDigit_digitChar (by omega)

theorem digitsValue_natDigits (n : Nat) : digitsValue 10 0 (RealFormat.natDigits n) = n := by
  induction n using Nat.strongRecOn with
  | ind n ih =>
    by_cases hn : n < 10
    · rw [natDigits_one hn]
      simp [digitsValue, digitValue?_digitChar n hn]
    · have hlast := digitValue?_digitChar (n % 10) (by omega)
      have hrest := ih (n / 10) (by omega)
      unfold digitsValue at hrest ⊢
      rw [natDigits_step (by omega), List.foldl_append, hrest, List.foldl_cons, List.foldl_nil,
        hlast, Option.getD_some]
      omega

theorem head?_natDigits {n : Nat} (h : 0 < n) : (RealFormat.natDigits n).head? ≠ some '0' := by
  have hone : ∀ d < 10, 0 < d → Nat.digitChar d ≠ '0' := by decide
  induction n using Nat.strongRecOn with
  | ind n ih =>
    by_cases hn : n < 10
    · rw [natDigits_one hn, List.head?_cons, Ne, Option.some.injEq]
      exact hone n hn h
    · have hrest := ih (n / 10) (by omega) (by omega)
      rw [natDigits_step (by omega), List.head?_append]
      cases hd : (RealFormat.natDigits (n / 10)).head? with
      | none => exact absurd (List.head?_eq_none_iff.mp hd) Nat.toDigits_ne_nil
      | some c => rwa [hd] at hrest

/-- An integer with all of its digits. -/
def Numeral.ofInt (i : Int) : Numeral where
  negative := decide (i < 0)
  whole := ⟨RealFormat.natDigits i.natAbs, isDigit_natDigits _, Nat.toDigits_ne_nil⟩
  fraction := none
  exponent := none
  plain := by
    rcases Nat.eq_zero_or_pos i.natAbs with h | h
    · exact .inl (by rw [h]; rfl)
    · exact .inr (head?_natDigits h)

theorem Numeral.integer?_ofInt (i : Int) : (ofInt i).integer? = some i := by
  simp only [integer?, ofInt, digitsValue_natDigits, decide_eq_true_eq, Option.some.injEq]
  split <;> omega

/-- What may follow a value in a compact text. -/
def Follows (rest : List Char) : Prop := ∀ c ∈ rest.head?, c = ',' ∨ c = ']' ∨ c = '\x7d'

theorem Follows.nil : Follows [] := by simp [Follows]

theorem Follows.cons {c : Char} (h : c = ',' ∨ c = ']' ∨ c = '\x7d') (rest : List Char) :
    Follows (c :: rest) := by simpa [Follows] using h

theorem Follows.not_digit {rest : List Char} (h : Follows rest) :
    ∀ c ∈ rest.head?, isDigit c = false := by
  intro c hc
  rcases h c hc with rfl | rfl | rfl <;> decide

theorem Digits.read (d : Digits) {rest : List Char}
    (h : ∀ c ∈ rest.head?, isDigit c = false) :
    readDigits (d.chars ++ rest) = some (d.chars, rest) := by
  have hrest : rest.takeWhile isDigit = [] ∧ rest.dropWhile isDigit = rest := by
    cases rest with
    | nil => exact ⟨rfl, rfl⟩
    | cons c r =>
      have hc := h c rfl
      simp [hc]
  unfold readDigits
  rw [List.takeWhile_append_of_pos d.digits, List.dropWhile_append_of_pos d.digits, hrest.1,
    hrest.2, List.append_nil]
  split
  next he => exact absurd he d.nonempty
  next => rfl

theorem Digits.head (d : Digits) (rest : List Char) :
    ∃ c r, d.chars ++ rest = c :: r ∧ isDigit c = true := by
  cases hd : d.chars with
  | nil => exact absurd hd d.nonempty
  | cons c ds => exact ⟨c, ds ++ rest, rfl, d.digits c (by rw [hd]; exact List.mem_cons_self)⟩

theorem Exponent.read (e : Exponent) {rest : List Char} (h : Follows rest) :
    readExponent (e.chars ++ rest) = some (some e.value, rest) := by
  have hread := e.digits.read h.not_digit
  have hsign : readSignedExponent
      (e.sign.elim [] (fun negative => [if negative then '-' else '+']) ++ e.digits.chars ++ rest) =
        some (some e.value, rest) := by
    unfold Exponent.value
    cases e.sign with
    | none =>
      obtain ⟨c, r, hc, hd⟩ := e.digits.head rest
      have hplus : c ≠ '+' := by rintro rfl; revert hd; decide
      have hminus : c ≠ '-' := by rintro rfl; revert hd; decide
      rw [Option.elim_none, List.nil_append, hc, readSignedExponent, ← hc, readExponentDigits,
        hread]
      · rfl
      · exact fun r he => hplus (List.cons.inj he).1
      · exact fun r he => hminus (List.cons.inj he).1
    | some negative =>
      cases negative with
      | false =>
        simp [readSignedExponent, readExponentDigits, hread]
      | true =>
        simp [readSignedExponent, readExponentDigits, hread]
  unfold chars
  cases e.capital with
  | false => exact hsign
  | true => exact hsign

namespace Numeral

/-- The exponent of a number with what follows. -/
def exponentOn (n : Numeral) (rest : List Char) : List Char :=
  n.exponent.elim [] Exponent.chars ++ rest

/-- The fraction and the exponent of a number with what follows. -/
def fractionOn (n : Numeral) (rest : List Char) : List Char :=
  n.fraction.elim [] (fun f => '.' :: f.chars) ++ n.exponentOn rest

variable {n : Numeral} {rest : List Char}

theorem head_exponentOn (h : Follows rest) :
    ∀ c ∈ (n.exponentOn rest).head?, isDigit c = false ∧ c ≠ '.' := by
  intro c hc
  unfold exponentOn at hc
  cases hn : n.exponent with
  | none =>
    rw [hn] at hc
    rcases h c hc with rfl | rfl | rfl <;> decide
  | some e =>
    rw [hn] at hc
    simp only [Option.elim_some, Exponent.chars, List.cons_append, List.head?_cons,
      Option.mem_some_iff] at hc
    rw [← hc]
    cases e.capital <;> decide

theorem head_fractionOn (h : Follows rest) :
    ∀ c ∈ (n.fractionOn rest).head?, isDigit c = false := by
  intro c hc
  unfold fractionOn at hc
  cases hn : n.fraction with
  | none =>
    rw [hn] at hc
    exact (head_exponentOn h c hc).1
  | some f =>
    rw [hn] at hc
    simp only [Option.elim_some, List.cons_append, List.head?_cons, Option.mem_some_iff] at hc
    rw [← hc]
    decide

theorem readExponent_on (h : Follows rest) :
    readExponent (n.exponentOn rest) = some (n.exponent.map Exponent.value, rest) := by
  unfold exponentOn
  cases n.exponent with
  | none =>
    rw [Option.elim_none, List.nil_append, readExponent]
    · rfl
    · rintro r rfl
      rcases h 'e' rfl with he | he | he <;> revert he <;> decide
    · rintro r rfl
      rcases h 'E' rfl with he | he | he <;> revert he <;> decide
  | some e => exact e.read h

theorem readFraction_on (h : Follows rest) :
    readFraction (n.fractionOn rest) = some (n.fraction.map Digits.chars, n.exponentOn rest) := by
  have hhead := head_exponentOn (n := n) h
  unfold fractionOn
  cases n.fraction with
  | none =>
    rw [Option.elim_none, List.nil_append, readFraction]
    · rfl
    · intro r he
      exact (hhead '.' (by rw [he]; rfl)).2 rfl
  | some f =>
    rw [Option.elim_some, List.cons_append, readFraction, f.read fun c hc => (hhead c hc).1]
    rfl

theorem readWhole_on (h : Follows rest) :
    readWhole (n.whole.chars ++ n.fractionOn rest) = some (n.whole.chars, n.fractionOn rest) := by
  unfold readWhole
  rw [n.whole.read (head_fractionOn h)]
  split
  next hs =>
    -- Two digits with a zero in front are neither a zero nor free of it.
    have hw := congrArg Prod.fst (Option.some.inj hs)
    dsimp only at hw
    rcases n.plain with hp | hp <;> simp [hw] at hp
  next => rfl

theorem readNumberText_on (h : Follows rest) :
    readNumberText n.negative (n.whole.chars ++ n.fractionOn rest) = some (n.parts, rest) := by
  unfold readNumberText
  simp only [readWhole_on h, readFraction_on h, readExponent_on h, Option.bind_eq_bind,
    Option.bind_some, Option.pure_def]
  rfl

theorem chars_append : n.chars ++ rest =
    RealFormat.sign n.negative ++ (n.whole.chars ++ n.fractionOn rest) := by
  simp only [chars, fractionOn, exponentOn, List.append_assoc]

theorem head (n : Numeral) (rest : List Char) :
    ∃ c r, n.chars ++ rest = c :: r ∧ (c = '-' ∨ isDigit c = true) := by
  rw [chars_append]
  cases n.negative with
  | true => exact ⟨_, _, rfl, .inl rfl⟩
  | false =>
    obtain ⟨c, r, hc, hd⟩ := n.whole.head (n.fractionOn rest)
    exact ⟨c, r, hc, .inr hd⟩

theorem read (n : Numeral) (h : Follows rest) :
    readNumber (n.chars ++ rest) = n.value?.map (·, rest) := by
  have htext := readNumberText_on (n := n) h
  have hend : (some (n.parts, rest)).bind (fun p => p.1.value?.bind fun v => some (v, p.2)) =
      n.value?.map (·, rest) := by
    rw [← parts_value?]
    cases hv : n.parts.value? <;> simp [hv]
  rw [chars_append, ← hend]
  unfold readNumber
  cases hn : n.negative with
  | true =>
    rw [hn] at htext
    simp only [RealFormat.sign, if_true, List.cons_append, List.nil_append, htext]
    rfl
  | false =>
    rw [hn] at htext
    obtain ⟨c, r, hc, hd⟩ := n.whole.head (n.fractionOn rest)
    have hminus : c ≠ '-' := by rintro rfl; revert hd; decide
    simp only [RealFormat.sign, Bool.false_eq_true, if_false, List.nil_append]
    rw [hc] at htext ⊢
    split
    next r' he => exact absurd (List.cons.inj he).1 hminus
    next => rw [htext]; rfl

end Numeral

/-- Texts with commas between them. -/
def joined : List (List Char) → List Char
  | [] => []
  | [t] => t
  | t :: u :: rest => t ++ ',' :: joined (u :: rest)

/-- A text that stands for an item of a sequence: it does not look like the end, and it is read as
the given value whatever follows. -/
structure ReadsAs {α : Type} (item : Reader α) (t : List Char) (v : Option α) : Prop where
  head : ∃ c r, t = c :: r ∧ isBlank c = false ∧ c ≠ ']' ∧ c ≠ '\x7d'
  read : ∀ rest, Follows rest → item (t ++ rest) = v.map (·, rest)

theorem skipBlank_cons {c : Char} (h : isBlank c = false) (r : List Char) :
    skipBlank (c :: r) = c :: r := by
  unfold skipBlank
  rw [List.dropWhile_cons_of_neg (by simp [h])]

theorem Follows.skipBlank {rest : List Char} (h : Follows rest) : skipBlank rest = rest := by
  cases rest with
  | nil => rfl
  | cons c r =>
    refine skipBlank_cons ?_ r
    rcases h c rfl with rfl | rfl | rfl <;> decide

section

variable {α ι : Type} {item : Reader α} {close : Char} {text : ι → List Char}
  {value : ι → Option α}

theorem ReadsAs.skipBlank {t : List Char} {v : Option α} (h : ReadsAs item t v)
    (rest : List Char) : Json.skipBlank (t ++ rest) = t ++ rest := by
  obtain ⟨c, r, rfl, hc, -⟩ := h.head
  exact skipBlank_cons hc (r ++ rest)

theorem readItems_joined (hclose : close = ']' ∨ close = '\x7d') (rest : List Char) :
    ∀ (items : List ι) (fuel : Nat), items ≠ [] → items.length ≤ fuel →
      (∀ i ∈ items, ReadsAs item (text i) (value i)) →
      readItems item close fuel (joined (items.map text) ++ close :: rest) =
        (items.mapM value).map (·, rest)
  | [], _, hne, _, _ => absurd rfl hne
  | [i], 0, _, hl, _ => by simp at hl
  | [i], fuel + 1, _, _, hi => by
    have h := hi i List.mem_cons_self
    have hf : Follows (close :: rest) := .cons (.inr hclose) rest
    simp only [List.map_cons, List.map_nil, joined, readItems]
    rw [h.skipBlank, h.read _ hf]
    cases hv : value i with
    | none => simp [hv]
    | some v => simp [hv, hf.skipBlank]
  | i :: k :: items, 0, _, hl, _ => by simp at hl
  | i :: k :: items, fuel + 1, _, hl, hi => by
    have h := hi i List.mem_cons_self
    have ih := readItems_joined hclose rest (k :: items) fuel (List.cons_ne_nil _ _)
      (by simpa using hl) fun r hr => hi r (List.mem_cons_of_mem i hr)
    have hne : ',' ≠ close := by rcases hclose with rfl | rfl <;> decide
    have hjoined : joined ((i :: k :: items).map text) ++ close :: rest =
        text i ++ ',' :: (joined ((k :: items).map text) ++ close :: rest) := by
      simp only [List.map_cons, joined, List.append_assoc, List.cons_append]
    have hf : Follows (',' :: (joined ((k :: items).map text) ++ close :: rest)) :=
      .cons (.inl rfl) _
    rw [hjoined, readItems, h.skipBlank, h.read _ hf]
    cases hv : value i with
    | none => simp [hv]
    | some v =>
      simp only [Option.map_some, Option.bind_eq_bind, Option.bind_some, hf.skipBlank, if_neg hne,
        if_true, ih, List.mapM_cons, hv]
      cases value k <;> cases items.mapM value <;> rfl

theorem length_le_joined {texts : List (List Char)} (h : ∀ t ∈ texts, t ≠ []) :
    texts.length ≤ (joined texts).length := by
  fun_induction joined texts with
  | case1 => exact Nat.le_refl 0
  | case2 t =>
    have ht := List.length_pos_iff.mpr (h t List.mem_cons_self)
    exact ht
  | case3 t u rest ih =>
    have hrest := ih fun s hs => h s (List.mem_cons_of_mem t hs)
    simp only [List.length_cons, List.length_append] at hrest ⊢
    omega

/-- A sequence is read item by item; one that has no value leaves the whole without one. -/
theorem readSequence_joined (hclose : close = ']' ∨ close = '\x7d') (rest : List Char)
    {items : List ι} (hi : ∀ i ∈ items, ReadsAs item (text i) (value i)) :
    readSequence item close (joined (items.map text) ++ close :: rest) =
      (items.mapM value).map (·, rest) := by
  have hf : Follows (close :: rest) := .cons (.inr hclose) rest
  cases hitems : items with
  | nil => simp [readSequence, joined, hf.skipBlank]
  | cons first others =>
    have hlength : (items.map text).length ≤ (joined (items.map text)).length :=
      length_le_joined fun t ht => by
        obtain ⟨k, hk, rfl⟩ := List.mem_map.mp ht
        obtain ⟨c, r, hc, -⟩ := (hi k hk).head
        rw [hc]
        exact List.cons_ne_nil c r
    obtain ⟨c, r, hc, hblank, hsquare, hcurly⟩ :=
      (hi first (hitems ▸ List.mem_cons_self)).head
    have hne : c ≠ close := by rcases hclose with rfl | rfl <;> assumption
    obtain ⟨r', hr'⟩ : ∃ r', joined (items.map text) ++ close :: rest = c :: r' := by
      rw [hitems]
      cases others <;> simp [joined, hc]
    -- Every item has a character, so there are at least as many of them as items.
    have hread := readItems_joined hclose rest items
      (joined (items.map text) ++ close :: rest).length
      (by rw [hitems]; exact List.cons_ne_nil _ _)
      (by simp only [List.length_map, List.length_append] at hlength ⊢; omega) hi
    rw [← hitems]
    unfold readSequence
    rw [hr'] at hread ⊢
    rw [skipBlank_cons hblank]
    simp only [if_neg hne]
    exact hread

end

/-- A JSON value as it is written in a compact text. -/
inductive Written where
  | null
  | bool (value : Bool)
  | number (n : Numeral)
  | str (q : QuotedText)
  | arr (items : List Written)
  | obj (members : List (QuotedText × Written))

namespace Written

mutual

/-- The text of a tree. -/
def chars : Written → List Char
  | null => ['n', 'u', 'l', 'l']
  | bool true => ['t', 'r', 'u', 'e']
  | bool false => ['f', 'a', 'l', 's', 'e']
  | number n => n.chars
  | str q => q.chars
  | arr items => '[' :: joined (itemTexts items) ++ [']']
  | obj members => '\x7b' :: joined (memberTexts members) ++ ['\x7d']

def itemTexts : List Written → List (List Char)
  | [] => []
  | w :: rest => w.chars :: itemTexts rest

def memberTexts : List (QuotedText × Written) → List (List Char)
  | [] => []
  | (name, w) :: rest => (name.chars ++ ':' :: w.chars) :: memberTexts rest

end

mutual

/-- The value of a tree with at most `depth` containers inside one another; none if it has more,
or a number that is too large. -/
def value? : Nat → Written → Option Json
  | _, null => some .null
  | _, bool b => some (.bool b)
  | _, number n => n.value?
  | _, str q => some (.str q.value)
  | 0, arr _ => none
  | 0, obj _ => none
  | depth + 1, arr items => (itemValues? depth items).map .arr
  | depth + 1, obj members => (memberValues? depth members).map .obj

def itemValues? : Nat → List Written → Option (List Json)
  | _, [] => some []
  | depth, w :: rest => do
    let v ← w.value? depth
    let vs ← itemValues? depth rest
    return v :: vs

def memberValues? : Nat → List (QuotedText × Written) → Option (List (String × Json))
  | _, [] => some []
  | depth, (name, w) :: rest => do
    let v ← w.value? depth
    let vs ← memberValues? depth rest
    return (name.value, v) :: vs

end

/-- The text of a tree in bytes. -/
def bytes (w : Written) : List UInt8 := (String.ofList w.chars).toUTF8.data.toList

@[elab_as_elim]
theorem induction {motive : Written → Prop} (null : motive .null)
    (bool : ∀ b, motive (.bool b)) (number : ∀ n, motive (.number n)) (str : ∀ q, motive (.str q))
    (arr : ∀ items, (∀ w ∈ items, motive w) → motive (.arr items))
    (obj : ∀ members, (∀ m ∈ members, motive m.2) → motive (.obj members)) (w : Written) :
    motive w :=
  @Written.rec motive (fun items => ∀ w ∈ items, motive w)
    (fun members => ∀ m ∈ members, motive m.2) (fun m => motive m.2)
    null bool number str arr obj (fun _ h => by cases h)
    (fun w rest hw hr => List.forall_mem_cons.mpr ⟨hw, hr⟩) (fun _ h => by cases h)
    (fun m rest hm hr => List.forall_mem_cons.mpr ⟨hm, hr⟩) (fun _ _ h => h) w

theorem itemTexts_eq (items : List Written) : itemTexts items = items.map chars := by
  induction items with
  | nil => rfl
  | cons w rest ih => rw [itemTexts, ih, List.map_cons]

theorem memberTexts_eq (members : List (QuotedText × Written)) :
    memberTexts members = members.map fun m => m.1.chars ++ ':' :: m.2.chars := by
  induction members with
  | nil => rfl
  | cons m rest ih => rw [memberTexts, ih, List.map_cons]

theorem itemValues?_eq (depth : Nat) (items : List Written) :
    itemValues? depth items = items.mapM (value? depth) := by
  induction items with
  | nil => rfl
  | cons w rest ih => rw [itemValues?, ih, List.mapM_cons]

/-- The value of a member. -/
def memberValue? (depth : Nat) (m : QuotedText × Written) : Option (String × Json) :=
  (m.2.value? depth).map (m.1.value, ·)

theorem memberValues?_eq (depth : Nat) (members : List (QuotedText × Written)) :
    memberValues? depth members = members.mapM (memberValue? depth) := by
  induction members with
  | nil => rfl
  | cons m rest ih =>
    rw [memberValues?, ih, List.mapM_cons, memberValue?]
    cases m.2.value? depth <;> rfl

theorem ne_of_begins {c d : Char} (h : c = '-' ∨ isDigit c = true) (hd : isDigit d = false)
    (hm : d ≠ '-') : c ≠ d := by
  rintro rfl
  rcases h with rfl | h
  · exact hm rfl
  · rw [hd] at h
    cases h

theorem head (w : Written) :
    ∃ c r, w.chars = c :: r ∧ isBlank c = false ∧ c ≠ ']' ∧ c ≠ '\x7d' := by
  cases w with
  | number n =>
    obtain ⟨c, r, hc, hd⟩ := n.head []
    rw [List.append_nil] at hc
    have hne : ∀ d, isDigit d = false → d ≠ '-' → c ≠ d := fun d => ne_of_begins hd
    refine ⟨c, r, hc, ?_, hne _ (by decide) (by decide), hne _ (by decide) (by decide)⟩
    simp [isBlank, hne ' ' (by decide) (by decide), hne '\t' (by decide) (by decide),
      hne '\n' (by decide) (by decide), hne '\r' (by decide) (by decide)]
  | bool b => cases b <;> exact ⟨_, _, rfl, by decide, by decide, by decide⟩
  | _ => exact ⟨_, _, rfl, by decide, by decide, by decide⟩

theorem readValue_cons {c : Char} (h : c = '-' ∨ isDigit c = true) (r : List Char) (depth : Nat) :
    readValue depth (c :: r) = readNumber (c :: r) := by
  have hne : ∀ d, isDigit d = false → d ≠ '-' → c ≠ d := fun d => ne_of_begins h
  have hscalar : readScalar (c :: r) = readNumber (c :: r) := by
    rw [readScalar]
    · exact fun r he => hne 'n' (by decide) (by decide) (List.cons.inj he).1
    · exact fun r he => hne 't' (by decide) (by decide) (List.cons.inj he).1
    · exact fun r he => hne 'f' (by decide) (by decide) (List.cons.inj he).1
    · exact fun r he => hne '\x22' (by decide) (by decide) (List.cons.inj he).1
  have hsquare := hne '[' (by decide) (by decide)
  have hcurly := hne '\x7b' (by decide) (by decide)
  cases depth <;> simp [readValue, hsquare, hcurly, hscalar]

theorem memberReadsAs {depth : Nat} {m : QuotedText × Written}
    (h : ReadsAs (readValue depth) m.2.chars (m.2.value? depth)) :
    ReadsAs (readMember (readValue depth)) (m.1.chars ++ ':' :: m.2.chars)
      (memberValue? depth m) := by
  refine ⟨⟨'\x22', _, rfl, by decide, by decide, by decide⟩, fun rest hr => ?_⟩
  rw [List.append_assoc, List.cons_append, readMember, m.1.read]
  have hcolon : skipBlank (':' :: (m.2.chars ++ rest)) = ':' :: (m.2.chars ++ rest) :=
    skipBlank_cons (by decide) _
  simp only [Option.bind_eq_bind, Option.bind_some, hcolon, h.skipBlank, h.read rest hr,
    memberValue?]
  cases m.2.value? depth <;> rfl

/-- The text of a tree is read as the value of the tree. -/
theorem readsAs (w : Written) :
    ∀ depth, ReadsAs (readValue depth) w.chars (w.value? depth) := by
  induction w using Written.induction with
  | null => exact fun depth => ⟨head _, fun rest _ => by cases depth <;> rfl⟩
  | bool b => exact fun depth => ⟨head _, fun rest _ => by cases b <;> cases depth <;> rfl⟩
  | number n =>
    refine fun depth => ⟨head _, fun rest hr => ?_⟩
    obtain ⟨c, r, hc, hd⟩ := n.head rest
    rw [chars, hc, readValue_cons hd, ← hc]
    exact n.read hr
  | str q =>
    refine fun depth => ⟨head _, fun rest _ => ?_⟩
    have hq : readScalar (q.chars ++ rest) = some (.str q.value, rest) := by
      have hread := q.read rest
      rw [QuotedText.chars, List.cons_append] at hread ⊢
      rw [readScalar, hread]
      rfl
    cases depth <;> exact hq
  | arr items ih =>
    refine fun depth => ⟨head _, fun rest _ => ?_⟩
    cases depth with
    | zero => rfl
    | succ depth =>
      have hread := readSequence_joined (.inl rfl) rest fun w hw => ih w hw depth
      rw [chars, itemTexts_eq, value?, itemValues?_eq, List.append_assoc, List.cons_append,
        readValue]
      simp only [List.singleton_append, hread]
      cases items.mapM (value? depth) <;> rfl
  | obj members ih =>
    refine fun depth => ⟨head _, fun rest _ => ?_⟩
    cases depth with
    | zero => rfl
    | succ depth =>
      have hread := readSequence_joined (.inr rfl) rest fun m hm => memberReadsAs (ih m hm depth)
      rw [chars, memberTexts_eq, value?, memberValues?_eq, List.append_assoc, List.cons_append,
        readValue]
      simp only [List.singleton_append, hread]
      cases members.mapM (memberValue? depth) <;> rfl

theorem ofChars?_chars (w : Written) : ofChars? w.chars = w.value? nestingLimit := by
  have h := w.readsAs nestingLimit
  have hread := h.read [] .nil
  have hskip := h.skipBlank []
  rw [List.append_nil] at hread hskip
  unfold ofChars?
  rw [hskip, hread]
  cases w.value? nestingLimit <;> rfl

theorem ofBytes?_bytes (w : Written) : ofBytes? w.bytes = w.value? nestingLimit := by
  have hutf : String.fromUTF8? ⟨w.bytes.toArray⟩ = some (String.ofList w.chars) := by
    have hb : (⟨w.bytes.toArray⟩ : ByteArray) = (String.ofList w.chars).toByteArray := by
      rw [bytes, Array.toArray_toList]
      rfl
    rw [hb, String.fromUTF8?, dif_pos (String.ofList w.chars).isValidUTF8]
    rfl
  unfold ofBytes?
  rw [hutf, Option.bind_some, String.toList_ofList, ofChars?_chars]

end Written

end Json

end SymbolAtlas
