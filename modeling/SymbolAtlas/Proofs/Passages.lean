import SymbolAtlas.Record.Hover

namespace SymbolAtlas

namespace Json

/-- A part that says nothing: null, an empty string, or an object that is in no language and whose
value, if it is a string, is empty. -/
inductive Silent : Json → Prop where
  | null : Silent null
  | empty : Silent (str "")
  | valueless {members : List (String × Json)}
    (untagged : (member? "language" members).bind str? = none)
    (value : ∀ s, (member? "value" members).bind str? = some s → s = "") : Silent (obj members)

/-- Two texts with a blank line between them, or the one that says something. -/
def blankLined (a b : String) : String :=
  if a = "" then b else if b = "" then a else a ++ "\n\n" ++ b

variable {p x payload : Json}

theorem fenced_ne_empty (language text : String) : fenced language text ≠ "" := by
  simp [fenced]

theorem realChars_ne_nil (format : RealFormat) (negative : Bool) (x : Binary64) :
    format.chars negative x ≠ [] := by
  have hpositional : ∀ digits lead, RealFormat.positional digits lead ≠ [] := by
    intro digits lead
    unfold RealFormat.positional
    dsimp only
    split
    next => simp
    next => split <;> simp
  have hscientific : ∀ digits lead, RealFormat.scientific digits lead ≠ [] := by
    intro digits lead
    unfold RealFormat.scientific
    simp [RealFormat.natDigits, Nat.toDigits_ne_nil]
  unfold RealFormat.chars
  split
  next => simp
  next =>
    dsimp only
    split
    next => simp [hpositional]
    next => simp [hscientific]

theorem chars_ne_nil (v : Json) : chars v ≠ [] := by
  cases v with
  | null => simp [chars]
  | bool value => cases value <;> simp [chars]
  | int i => simp [chars, intChars, RealFormat.natDigits, Nat.toDigits_ne_nil]
  | real negative x => exact realChars_ne_nil realFormat negative x
  | str s => simp [chars, quoted]
  | arr items => simp [chars]
  | obj members => simp [chars]

theorem text_ne_empty (v : Json) : v.text ≠ "" := by
  simp [text, chars_ne_nil]

/-- The text of a part is empty exactly if the part says nothing. -/
theorem partText_eq_empty_iff : p.partText = "" ↔ p.Silent := by
  cases p with
  | null => exact iff_of_true rfl .null
  | str s =>
    refine ⟨fun h => ?_, fun h => ?_⟩
    · change s = "" at h
      exact h ▸ .empty
    · cases h
      rfl
  | obj members =>
    unfold partText
    dsimp only
    cases hl : (member? "language" members).bind str? with
    | some language =>
      refine iff_of_false (fenced_ne_empty _ _) fun h => ?_
      cases h with
      | valueless untagged => simp [hl] at untagged
    | none =>
      cases hv : (member? "value" members).bind str? with
      | none => exact iff_of_true rfl (.valueless hl fun s hs => by simp [hv] at hs)
      | some body =>
        refine ⟨fun h => .valueless hl fun s hs => ?_, fun h => ?_⟩
        · exact (Option.some.inj (hs.symm.trans hv)).trans h
        · cases h with
          | valueless _ value => exact value body hv
  | _ => exact iff_of_false (text_ne_empty _) nofun

/-- The texts of the parts that say something. -/
def passages (parts : List Json) : List String :=
  (parts.map partText).filter fun t => !t.isEmpty

theorem hoverText_arr (parts : List Json) :
    (arr parts).hoverText = "\n\n".intercalate (passages parts) := rfl

theorem passages_append (xs ys : List Json) : passages (xs ++ ys) = passages xs ++ passages ys := by
  simp [passages]

theorem ne_empty_of_mem_passages {parts : List Json} {t : String} (h : t ∈ passages parts) :
    t ≠ "" := by
  have hkept := (List.mem_filter.mp h).2
  simpa using hkept

theorem passages_eq_nil_iff {parts : List Json} : passages parts = [] ↔ ∀ p ∈ parts, p.Silent := by
  unfold passages
  rw [List.filter_eq_nil_iff, List.forall_mem_map]
  refine forall₂_congr fun p _ => ?_
  rw [← partText_eq_empty_iff]
  simp

theorem intercalate_eq_empty_iff {texts : List String} (h : ∀ t ∈ texts, t ≠ "")
    (separator : String) : separator.intercalate texts = "" ↔ texts = [] := by
  cases texts with
  | nil => simp
  | cons t rest =>
    have ht := h t List.mem_cons_self
    cases rest with
    | nil => simpa using ht
    | cons u rest => simp [ht]

theorem hoverText_arr_eq_empty_iff {parts : List Json} :
    (arr parts).hoverText = "" ↔ passages parts = [] := by
  rw [hoverText_arr]
  exact intercalate_eq_empty_iff (fun _ ht => ne_empty_of_mem_passages ht) "\n\n"

theorem hoverText_append (xs ys : List Json) :
    (arr (xs ++ ys)).hoverText = blankLined (arr xs).hoverText (arr ys).hoverText := by
  have happend : (arr (xs ++ ys)).hoverText = "\n\n".intercalate (passages xs ++ passages ys) := by
    rw [hoverText_arr, passages_append]
  rw [happend]
  unfold blankLined
  split
  next hx => rw [hoverText_arr_eq_empty_iff.mp hx, List.nil_append, hoverText_arr]
  next hx =>
    split
    next hy => rw [hoverText_arr_eq_empty_iff.mp hy, List.append_nil, hoverText_arr]
    next hy =>
      have hxs : passages xs ≠ [] := fun hn => hx (hoverText_arr_eq_empty_iff.mpr hn)
      have hys : passages ys ≠ [] := fun hn => hy (hoverText_arr_eq_empty_iff.mpr hn)
      rw [String.intercalate_append_of_ne_nil hxs hys, hoverText_arr, hoverText_arr]

theorem hoverText_insert {gap : List Json} (h : ∀ p ∈ gap, p.Silent) (xs ys : List Json) :
    (arr (xs ++ gap ++ ys)).hoverText = (arr (xs ++ ys)).hoverText := by
  simp only [hoverText_arr, passages_append, passages_eq_nil_iff.mpr h, List.append_nil]

theorem hoverText_part (hn : ∀ items, x ≠ arr items) (hc : x.get? "contents" = none) :
    x.hoverText = x.partText := by
  unfold hoverText
  rw [hc, Option.getD_none]
  cases x with
  | arr items => exact absurd rfl (hn items)
  | _ => rfl

theorem hoverText_contents (h : payload.get? "contents" = some x) (hc : x.get? "contents" = none) :
    payload.hoverText = x.hoverText := by
  unfold hoverText
  rw [h, hc, Option.getD_some, Option.getD_none]

theorem hoverText_singleton (hn : ∀ items, x ≠ arr items) (hc : x.get? "contents" = none) :
    (arr [x]).hoverText = x.hoverText := by
  rw [hoverText_part hn hc, hoverText_arr]
  unfold passages
  by_cases h : x.partText = ""
  · simp [h]
  · simp [h]

/-- A payload has the text of the value that it holds.  The text of a list of parts is put together
from those of its pieces, and it is empty exactly if all parts say nothing.  Such parts can stand
anywhere, a part alone has the text that it has in a list, and a string is its own text. -/
theorem hover_text_of_parts :
    (∀ payload x : Json, payload.get? "contents" = some x → x.get? "contents" = none →
      payload.hoverText = x.hoverText) ∧
    (∀ xs ys : List Json,
      (arr (xs ++ ys)).hoverText = blankLined (arr xs).hoverText (arr ys).hoverText) ∧
    (∀ xs gap ys : List Json, (∀ p ∈ gap, p.Silent) →
      (arr (xs ++ gap ++ ys)).hoverText = (arr (xs ++ ys)).hoverText) ∧
    (∀ x : Json, (∀ items, x ≠ arr items) → x.get? "contents" = none →
      (arr [x]).hoverText = x.hoverText) ∧
    (∀ parts : List Json, (arr parts).hoverText = "" ↔ ∀ p ∈ parts, p.Silent) ∧
    ∀ s : String, (str s).hoverText = s :=
  ⟨fun _ _ => hoverText_contents, hoverText_append, fun xs _ ys h => hoverText_insert h xs ys,
    fun _ => hoverText_singleton,
    fun _ => hoverText_arr_eq_empty_iff.trans passages_eq_nil_iff, fun _ => rfl⟩

/-- A part in a language. -/
def codePart : Json := obj [("language", str "ts"), ("value", str "let x")]

/-- Under the name of its value, with null in between, a fenced text comes before another one. -/
theorem docs_below_code :
    (obj [("contents", arr [codePart, null, str "docs"])]).hoverText =
      "```ts\nlet x\n```\n\ndocs" := by
  obtain ⟨hcontents, happend, hgap, hone, -, hstr⟩ := hover_text_of_parts
  have hcode : (arr [codePart]).hoverText = "```ts\nlet x\n```" :=
    (hone codePart (by simp [codePart]) (by decide +kernel)).trans (by decide +kernel)
  have hdocs : (arr [str "docs"]).hoverText = "docs" :=
    (hone (str "docs") (by simp) rfl).trans (hstr "docs")
  have hnull : ∀ p ∈ [null], p.Silent := by
    intro p hp
    exact List.mem_singleton.mp hp ▸ .null
  calc (obj [("contents", arr [codePart, null, str "docs"])]).hoverText
      = (arr [codePart, null, str "docs"]).hoverText := hcontents _ _ (by simp [get?, member?]) rfl
    _ = (arr [codePart, str "docs"]).hoverText := hgap [codePart] [null] [str "docs"] hnull
    _ = blankLined (arr [codePart]).hoverText (arr [str "docs"]).hoverText :=
        happend [codePart] [str "docs"]
    _ = "```ts\nlet x\n```\n\ndocs" := by
        rw [hcode, hdocs]
        decide +kernel

end Json

end SymbolAtlas
