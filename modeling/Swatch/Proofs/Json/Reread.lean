import Mathlib.Tactic
import Swatch.Json.Printer
import Swatch.Json.Reader
/-!
Objects that are written as JSON are read back.

* `Json.stringBody_flatMap`: the characters of a string, escaped or not, are read back.
* `Json.IsPlain`: values that hold no others and are no numbers.
* `Json.reads_render`: such a value is read back, whatever follows it.
* `Json.read_render_object`: so is an object of such values.
-/

namespace Swatch.Json

/-! ### Characters -/

/-- The number of a control character is written in four digits, which read as it. -/
lemma hexPadded_spec : ∀ n < 0x20, (hexPadded 4 n).length = 4 ∧
    (hexPadded 4 n).all isHexDigit = true ∧ hexValue (hexPadded 4 n) = n := by
  decide

lemma hexQuad?_append {digits : Text} (hlength : digits.length = 4)
    (hdigits : digits.all isHexDigit = true) (s : Text) :
    hexQuad? (digits ++ s) = some (hexValue digits, s) := by
  match digits, hlength with
  | [a, b, c, d], _ => exact if_pos hdigits

/-- The number of a control character is read as the character. -/
lemma unicodeEscape_control {c : Char} (hc : c.toNat < 0x20) {s : Text} (hs : s ≠ []) :
    unicodeEscape (hexPadded 4 c.toNat ++ s) = .ok (c, s) := by
  obtain ⟨hlength, hdigits, hvalue⟩ := hexPadded_spec c.toNat hc
  have hmore : moreThanFour (hexPadded 4 c.toNat ++ s) = true := by
    rw [moreThanFour, List.drop_left' hlength]
    simpa using hs
  have hlow : isHighSurrogate c.toNat = false := by
    simp only [isHighSurrogate, Bool.and_eq_false_iff, decide_eq_false_iff_not]
    omega
  have hlow' : isLowSurrogate c.toNat = false := by
    simp only [isLowSurrogate, Bool.and_eq_false_iff, decide_eq_false_iff_not]
    omega
  have hunit : unitChar c.toNat = c := by
    rw [unitChar, hlow, hlow']
    exact Char.ofNat_toNat c
  have hnot : ¬ (!moreThanFour (hexPadded 4 c.toNat ++ s)) = true := by simp [hmore]
  rw [unicodeEscape, if_neg hnot, hexQuad?_append hlength hdigits, hvalue]
  simp only [hlow, Bool.false_and, hunit]
  split
  · exact if_neg (by decide)
  · rfl

/-- A character of a string is read as it was written. -/
lemma stringChar_quotedUnit (opening : Text) (c : Char) {s : Text} (hs : s ≠ []) :
    stringChar opening (quotedUnit c ++ s) = .ok (c, s) := by
  rw [quotedUnit]
  split_ifs with hquote hline hreturn htab hcontrol
  · simp only [Bool.or_eq_true, decide_eq_true_eq] at hquote
    rcases hquote with rfl | rfl <;> rfl
  · rw [hline]
    rfl
  · rw [hreturn]
    rfl
  · rw [htab]
    rfl
  · exact unicodeEscape_control hcontrol hs
  · simp only [Bool.or_eq_true, decide_eq_true_eq, not_or] at hquote
    change stringChar opening (c :: s) = .ok (c, s)
    rw [stringChar.eq_def]
    simp only [if_neg hquote.2, if_neg hcontrol]

lemma head?_quotedUnit_append_ne (c : Char) (s : Text) :
    (quotedUnit c ++ s).head? ≠ some '"' := by
  rw [quotedUnit]
  split_ifs with hquote hline hreturn htab hcontrol
  · simp
  · simp
  · simp
  · simp
  · simp
  · simp only [Bool.or_eq_true, decide_eq_true_eq, not_or] at hquote
    simpa using hquote.1

/-- The characters of a string are read up to the quote that closes it. -/
lemma stringBody_flatMap (opening s rest : Text) :
    stringBody opening (s.flatMap quotedUnit ++ '"' :: rest) = .ok (s, rest) := by
  induction s with
  | nil =>
      rw [stringBody]
      rfl
  | cons c s ih =>
      have hchar := stringChar_quotedUnit opening c
        (s := s.flatMap quotedUnit ++ '"' :: rest) (by simp)
      rw [List.flatMap_cons, List.append_assoc, stringBody,
        if_neg (head?_quotedUnit_append_ne c _)]
      split
      · next stop hstop => exact absurd (hchar.symm.trans hstop) (by simp)
      · next c' left hleft =>
        rw [hchar, Except.ok.injEq, Prod.mk.injEq] at hleft
        rw [← hleft.1, ← hleft.2, ih]
        rfl

lemma exists_characters (opening s rest : Text) :
    ∃ h, characters opening (s.flatMap quotedUnit ++ '"' :: rest) = .ok (s, ⟨rest, h⟩) := by
  have hbody := stringBody_flatMap opening s rest
  rw [characters]
  split
  · next stop hstop => exact absurd (hbody.symm.trans hstop) (by simp)
  · next text left hleft =>
    rw [hbody, Except.ok.injEq, Prod.mk.injEq] at hleft
    obtain ⟨rfl, rfl⟩ := hleft
    exact ⟨length_of_stringBody hbody, rfl⟩

/-! ### Values -/

/-- A value that holds no others, and is no number. -/
inductive IsPlain : Json → Prop where
  | null : IsPlain .null
  | bool (b : Bool) : IsPlain (.bool b)
  | string (s : Text) : IsPlain (.string s)

/-- A value stands at the start of a text, and a rest is left. -/
def Reads (depth : Nat) (s : Text) (x : Json) (rest : Text) : Prop :=
  ∃ h, value depth s = .ok (x, ⟨rest, h⟩)

lemma shorter_eq {s rest : Text} (h : rest.length < s.length) : shorter s rest = .ok ⟨rest, h⟩ :=
  dif_pos h

/-- What begins with no quote and no bracket is read as a scalar. -/
lemma reads_of_scalar {depth : Nat} {c : Char} {s rest : Text} {x : Json} (hquote : c ≠ '"')
    (hbracket : c ≠ '[') (hbrace : c ≠ '\x7b') (hscalar : scalar (c :: s) = .ok (x, rest))
    (hlt : rest.length < (c :: s).length) : Reads depth (c :: s) x rest := by
  refine ⟨hlt, ?_⟩
  rw [value, if_neg hquote, if_neg hbracket, if_neg hbrace, hscalar]
  change (shorter (c :: s) rest >>= fun rest => pure (x, rest)) = _
  rw [shorter_eq hlt]
  rfl

/-- A value is read as it was written, whatever follows it. -/
lemma reads_render (depth : Nat) {x : Json} (hx : x.IsPlain) (rest : Text) :
    Reads depth (render x ++ rest) x rest := by
  cases hx with
  | null => exact reads_of_scalar (by decide) (by decide) (by decide) rfl (by simp; omega)
  | bool b =>
      cases b
      · exact reads_of_scalar (by decide) (by decide) (by decide) rfl (by simp; omega)
      · exact reads_of_scalar (by decide) (by decide) (by decide) rfl (by simp; omega)
  | string s =>
      obtain ⟨h, hcharacters⟩ :=
        exists_characters ('"' :: (s.flatMap quotedUnit ++ '"' :: rest)) s rest
      have htext : render (.string s) ++ rest = '"' :: (s.flatMap quotedUnit ++ '"' :: rest) := by
        simp [render, stringText]
      rw [htext]
      refine ⟨Nat.lt_succ_of_lt h, ?_⟩
      rw [value, if_pos rfl, hcharacters]
      rfl

/-! ### Objects -/

lemma skipSpaces_cons {c : Char} (hc : isSpace c = false) (s : Text) :
    skipSpaces (c :: s) = c :: s := by
  rw [skipSpaces, List.dropWhile_cons, hc]
  rfl

lemma cons_of_skipSpaces {c d : Char} {s t : Text} (hc : isSpace c = false)
    (h : skipSpaces (c :: s) = d :: t) : c = d ∧ s = t := by
  rwa [skipSpaces_cons hc, List.cons.injEq] at h

lemma skipSpaces_render {x : Json} (hx : x.IsPlain) (rest : Text) :
    skipSpaces (render x ++ rest) = render x ++ rest := by
  cases hx with
  | null => exact skipSpaces_cons (by decide) _
  | bool b => cases b <;> exact skipSpaces_cons (by decide) _
  | string s => exact skipSpaces_cons (by decide) _

/-- The members of an object stand at the start of a text, and a rest is left. -/
def ReadsMembers (depth : Nat) (s : Text) (fields : List (Text × Json)) (rest : Text) : Prop :=
  ∃ h, members depth s = .ok (fields, ⟨rest, h⟩)

/-- Behind a member of an object stand others, or the brace that closes it, and a rest is left. -/
inductive Continues (depth : Nat) : Text → List (Text × Json) → Text → Prop where
  | close (rest : Text) : Continues depth ('\x7d' :: rest) [] rest
  | more {s rest : Text} {fields : List (Text × Json)}
      (h : ReadsMembers depth (skipSpaces s) fields rest) : Continues depth (',' :: s) fields rest

lemma Continues.length_lt {depth : Nat} {s rest : Text} {fields : List (Text × Json)}
    (h : Continues depth s fields rest) : rest.length < s.length := by
  cases h with
  | close => exact Nat.lt_succ_self _
  | @more s _ _ h => exact (h.1.trans_le (length_skipSpaces_le s)).trans (Nat.lt_succ_self _)

lemma stringText_append (name s : Text) :
    stringText name ++ s = '"' :: (name.flatMap quotedUnit ++ '"' :: s) := by
  simp [stringText]

/-- A member of an object is read, and then the ones behind it. -/
lemma Continues.readsMembers {depth : Nat} {left rest' rest : Text} {x : Json}
    {fields : List (Text × Json)} (h : Continues depth rest' fields rest)
    (hx : Reads depth (skipSpaces left) x rest') (name : Text) :
    ReadsMembers depth (stringText name ++ ':' :: left) ((name, x) :: fields) rest := by
  obtain ⟨hlt, hvalue⟩ := hx
  obtain ⟨hlt', hname⟩ :=
    exists_characters (stringText name ++ ':' :: left) name (':' :: left)
  have hshort : rest.length < (stringText name ++ ':' :: left).length := by
    have hrest := h.length_lt
    have hspaces := length_skipSpaces_le left
    simp only [List.length_append, List.length_cons]
    omega
  rw [stringText_append] at hname hshort ⊢
  refine ⟨hshort, ?_⟩
  rw [members, if_pos rfl, hname]
  simp only [bind, Except.bind]
  split
  · next left' hcolon =>
    obtain ⟨-, rfl⟩ := cons_of_skipSpaces (by decide) hcolon
    rw [hvalue]
    simp only
    cases h with
    | close =>
        split
        · next last hbrace =>
          obtain ⟨-, rfl⟩ := cons_of_skipSpaces (by decide) hbrace
          rw [shorter_eq hshort]
          rfl
        · next last hcomma =>
          exact absurd (cons_of_skipSpaces (by decide) hcomma).1 (by decide)
        · next hbrace hcomma => exact absurd (skipSpaces_cons (by decide) _) (hbrace _)
    | more h =>
        obtain ⟨hlt, hmembers⟩ := h
        split
        · next last hbrace =>
          exact absurd (cons_of_skipSpaces (by decide) hbrace).1 (by decide)
        · next last hcomma =>
          obtain ⟨-, rfl⟩ := cons_of_skipSpaces (by decide) hcomma
          rw [hmembers]
          rfl
        · next hbrace hcomma => exact absurd (skipSpaces_cons (by decide) _) (hcomma _)
  · next hcolon => exact absurd (skipSpaces_cons (by decide) _) (hcolon _)

/-- The text of the members of an object begins with the quote of a name. -/
lemma exists_intercalate_eq {fields : List (Text × Json)} (hne : fields ≠ []) :
    ∃ s, [','].intercalate (renderFields fields) = '"' :: s := by
  obtain ⟨⟨name, x⟩, fields, rfl⟩ := List.exists_cons_of_ne_nil hne
  cases fields with
  | nil => exact ⟨_, List.intercalate_singleton⟩
  | cons g fields => exact ⟨_, List.intercalate_cons_cons⟩

lemma skipSpaces_members {fields : List (Text × Json)} (hne : fields ≠ []) (rest : Text) :
    skipSpaces ([','].intercalate (renderFields fields) ++ rest)
      = [','].intercalate (renderFields fields) ++ rest := by
  obtain ⟨s, hs⟩ := exists_intercalate_eq hne
  rw [hs]
  exact skipSpaces_cons (by decide) _

/-- The members of an object that is written without spaces are read up to its closing brace. -/
lemma readsMembers_intercalate {fields : List (Text × Json)} (hne : fields ≠ [])
    (hplain : ∀ f ∈ fields, f.2.IsPlain) (depth : Nat) (rest : Text) :
    ReadsMembers depth ([','].intercalate (renderFields fields) ++ '\x7d' :: rest) fields rest := by
  induction fields with
  | nil => exact absurd rfl hne
  | cons f fields ih =>
      obtain ⟨name, x⟩ := f
      rw [List.forall_mem_cons] at hplain
      have hx (rest : Text) : Reads depth (skipSpaces (render x ++ rest)) x rest := by
        rw [skipSpaces_render hplain.1]
        exact reads_render depth hplain.1 rest
      cases fields with
      | nil =>
          have hmembers := (Continues.close rest).readsMembers (hx _) name
          rw [renderFields, renderFields, List.intercalate_singleton, List.append_assoc]
          exact hmembers
      | cons g fields =>
          have hne : g :: fields ≠ [] := List.cons_ne_nil g fields
          have hmore := ih hne hplain.2
          rw [← skipSpaces_members hne] at hmore
          have hmembers := (Continues.more hmore).readsMembers (hx _) name
          rw [renderFields, renderFields, List.intercalate_cons_cons, ← renderFields]
          simpa using hmembers

/-- An object of plain values is read as it was written. -/
lemma reads_object {fields : List (Text × Json)} (hplain : ∀ f ∈ fields, f.2.IsPlain)
    (depth : Nat) (rest : Text) :
    Reads (depth + 1) (render (.object fields) ++ rest) (.object fields) rest := by
  have htext : render (.object fields) ++ rest
      = '\x7b' :: ([','].intercalate (renderFields fields) ++ '\x7d' :: rest) := by
    simp [render]
  have hlt : rest.length < (render (.object fields) ++ rest).length := by
    rw [htext]
    simp only [List.length_cons, List.length_append]
    omega
  rw [htext] at hlt ⊢
  refine ⟨hlt, ?_⟩
  rw [value, if_neg (by decide), if_neg (by decide), if_pos rfl]
  by_cases hne : fields = []
  · subst hne
    change (shorter _ rest >>= fun rest => pure (Json.object [], rest)) = _
    rw [shorter_eq hlt]
    rfl
  · have hmembers := readsMembers_intercalate hne hplain depth rest
    have hspaces := skipSpaces_members hne ('\x7d' :: rest)
    rw [← hspaces] at hmembers
    obtain ⟨hlt', hmembers⟩ := hmembers
    simp only [opened, bind, Except.bind]
    split
    · next last hbrace =>
      obtain ⟨s, hs⟩ := exists_intercalate_eq hne
      rw [hspaces, hs, List.cons_append, List.cons.injEq] at hbrace
      exact absurd hbrace.1 (by decide)
    · rw [hmembers]
      rfl

/-- An object of plain values is read back as it was written. -/
theorem read_render_object {fields : List (Text × Json)} (hplain : ∀ f ∈ fields, f.2.IsPlain)
    {depth : Nat} (hdepth : 0 < depth) :
    read depth (render (.object fields)) = .ok (.object fields) := by
  obtain ⟨depth, rfl⟩ := Nat.exists_eq_add_one.mpr hdepth
  have hspaces : skipSpaces (render (.object fields)) = render (.object fields) :=
    skipSpaces_cons (by decide) _
  have hreads := reads_object hplain depth []
  rw [List.append_nil, ← hspaces] at hreads
  obtain ⟨hlt, hvalue⟩ := hreads
  rw [read, hvalue]
  rfl

end Swatch.Json
