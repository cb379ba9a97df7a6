import Swatch.Document.Basic
import Swatch.Proofs.Form.Function
/-!
Looking for a colour function in a text.

* `Form.IsFunction`, `Form.components?`: the functions of each form and their readers, as one.
* `Form.IsLeftmost`: the leftmost function of a text, of which there is one at most
  (`Form.IsLeftmost.unique`).
* `isLeftmost_of_leftmost?`, `leftmost?_ne_none`: the search finds it if the text holds a function.
* `Form.readComponents`, `Form.read_of_leftmost?`: the colour that is read is that of the components
  that were found.
* `Form.IsFunction.shape`: a function has one opening and one closing parenthesis, so that a text
  with one closing parenthesis, at its end, holds at most one function
  (`Form.IsFunction.unique_suffix`).
* `Form.IsFunction.lower_eq`: a function is in lower case.
-/

namespace Swatch

open Parts

/-- A text is a function of a form with the given components. -/
def Form.IsFunction : Form → Components → Text → Prop
  | .hex => fun _ _ => False
  | .rgb => Rgb.IsFunction
  | .hsl => Hsl.IsFunction
  | .oklch => Oklch.IsFunction

/-- The components that the reader of a form finds at the start of a text. -/
def Form.components? : Form → Text → Option (Components × Text)
  | .hex => fun _ => none
  | .rgb => Rgb.components?
  | .hsl => Hsl.components?
  | .oklch => Oklch.components?

lemma Form.components?_iff {form : Form} {s rest : Text} {c : Components} :
    form.components? s = some (c, rest) ↔ ∃ text, form.IsFunction c text ∧ s = text ++ rest := by
  cases form with
  | hex => simp [Form.components?, Form.IsFunction]
  | rgb => exact Rgb.components?_eq_some_iff
  | hsl => exact Hsl.components?_eq_some_iff
  | oklch => exact Oklch.components?_eq_some_iff

/-- The components of a function are those that its text shows. -/
lemma Form.IsFunction.components_unique {form : Form} {c c' : Components} {text : Text}
    (h : form.IsFunction c text) (h' : form.IsFunction c' text) : c = c' := by
  have hc := Form.components?_iff.mpr ⟨text, h, (List.append_nil text).symm⟩
  have hc' := Form.components?_iff.mpr ⟨text, h', (List.append_nil text).symm⟩
  rw [hc, Option.some.injEq, Prod.mk.injEq] at hc'
  exact hc'.1

/-! ### The search -/

section Search

variable {form : Form} {s : Text}

/-- A function stands in a text behind a front, and none stands nearer to its start. -/
structure Form.IsLeftmost (form : Form) (s front text rest : Text) (c : Components) : Prop where
  eq : s = front ++ (text ++ rest)
  isFunction : form.IsFunction c text
  length_le : ∀ front' text' rest' c', form.IsFunction c' text' →
    s = front' ++ (text' ++ rest') → front.length ≤ front'.length

/-- A function at the start of a text is its leftmost one. -/
lemma Form.IsFunction.isLeftmost {c : Components} {text rest : Text}
    (h : form.IsFunction c text) : form.IsLeftmost (text ++ rest) [] text rest c :=
  ⟨rfl, h, fun _ _ _ _ _ _ => Nat.zero_le _⟩

/-- A leftmost function stays one behind another character, if none stands at the start then. -/
lemma Form.IsLeftmost.cons {front text rest : Text} {c : Components}
    (h : form.IsLeftmost s front text rest c) {d : Char}
    (hnone : form.components? (d :: s) = none) :
    form.IsLeftmost (d :: s) (d :: front) text rest c := by
  refine ⟨by rw [h.eq]; rfl, h.isFunction, fun front' text' rest' c' h' heq => ?_⟩
  cases front' with
  | nil =>
      have hsome := Form.components?_iff.mpr ⟨text', h', heq⟩
      rw [hnone] at hsome
      exact absurd hsome (by simp)
  | cons d' front' =>
      rw [List.cons_append, List.cons.injEq] at heq
      exact Nat.succ_le_succ (h.length_le front' text' rest' c' h' heq.2)

/-- The search finds the leftmost function of the text. -/
theorem isLeftmost_of_leftmost? {c : Components} {rest : Text}
    (h : Components.leftmost? form.components? s = some (c, rest)) :
    ∃ front text, form.IsLeftmost s front text rest c := by
  induction s with
  | nil =>
      rw [Components.leftmost?] at h
      obtain ⟨text, htext, hs⟩ := Form.components?_iff.mp h
      rw [hs]
      exact ⟨[], text, htext.isLeftmost⟩
  | cons d s ih =>
      rw [Components.leftmost?] at h
      split at h
      · next found hfound =>
        rw [h] at hfound
        obtain ⟨text, htext, hs⟩ := Form.components?_iff.mp hfound
        rw [hs]
        exact ⟨[], text, htext.isLeftmost⟩
      · next hnone =>
        obtain ⟨front, text, hleftmost⟩ := ih h
        exact ⟨d :: front, text, hleftmost.cons hnone⟩

/-- What the search finds stands in the text. -/
lemma leftmost?_eq_some {c : Components} {rest : Text}
    (h : Components.leftmost? form.components? s = some (c, rest)) :
    ∃ front text, form.IsFunction c text ∧ s = front ++ (text ++ rest) := by
  obtain ⟨front, text, hleftmost⟩ := isLeftmost_of_leftmost? h
  exact ⟨front, text, hleftmost.isFunction, hleftmost.eq⟩

/-- At the start of a text stands one function at most. -/
lemma Form.IsFunction.unique_prefix {c c' : Components} {text text' rest rest' : Text}
    (h : form.IsFunction c text) (h' : form.IsFunction c' text')
    (heq : text ++ rest = text' ++ rest') : text = text' ∧ rest = rest' ∧ c = c' := by
  have hsome : form.components? (text ++ rest) = some (c, rest) :=
    Form.components?_iff.mpr ⟨text, h, rfl⟩
  have hsome' := Form.components?_iff.mpr ⟨text', h', heq⟩
  rw [hsome, Option.some.injEq, Prod.mk.injEq] at hsome'
  obtain ⟨rfl, rfl⟩ := hsome'
  exact ⟨List.append_cancel_right heq, rfl, rfl⟩

/-- A text has one leftmost function at most, which shows its components in one way. -/
theorem Form.IsLeftmost.unique {front front' text text' rest rest' : Text} {c c' : Components}
    (h : form.IsLeftmost s front text rest c) (h' : form.IsLeftmost s front' text' rest' c') :
    front = front' ∧ text = text' ∧ rest = rest' ∧ c = c' := by
  have hlength : front.length = front'.length :=
    le_antisymm (h.length_le _ _ _ _ h'.isFunction h'.eq)
      (h'.length_le _ _ _ _ h.isFunction h.eq)
  obtain ⟨hfront, htail⟩ := List.append_inj (h.eq.symm.trans h'.eq) hlength
  exact ⟨hfront, h.isFunction.unique_prefix h'.isFunction htail⟩

/-- A text that holds a function is not searched in vain. -/
lemma leftmost?_ne_none {c : Components} {front text rest : Text} (h : form.IsFunction c text) :
    Components.leftmost? form.components? (front ++ (text ++ rest)) ≠ none := by
  have hhead : form.components? (text ++ rest) = some (c, rest) :=
    Form.components?_iff.mpr ⟨text, h, rfl⟩
  induction front with
  | nil =>
      rw [List.nil_append]
      cases hs : text ++ rest with
      | nil => rw [Components.leftmost?, ← hs, hhead]; simp
      | cons d s => rw [Components.leftmost?, ← hs, hhead]; simp
  | cons d front ih =>
      rw [List.cons_append, Components.leftmost?]
      split
      · simp
      · exact ih

variable [Elementary]

/-- The colour that components denote. -/
def Form.readComponents : Form → Components → Except Fault (Option Sample)
  | .hex => fun _ => .ok none
  | .rgb => fun c => do
    let red ← readInteger c.first
    let green ← readInteger c.second
    let blue ← readInteger c.third
    let alpha ← readAlpha c.alpha
    some <$> Sample.ofIntegers red green blue alpha
  | .hsl => fun c => do
    let hue ← readInteger c.first
    let saturation ← readNumber c.second
    let lightness ← readNumber c.third
    let (red, green, blue) ← (Hue.whole hue).toBytes (saturation / 100) (lightness / 100)
    let alpha ← readAlpha c.alpha
    some <$> Sample.ofIntegers red green blue alpha
  | .oklch => fun c => do
    let lightness ← readNumber c.first
    let chroma ← readNumber c.second
    let hue ← readNumber c.third
    let alpha ← readAlpha c.alpha
    let (red, green, blue) ← (Oklch.mk (lightness / 100) chroma hue).toBytes
    some <$> Sample.ofIntegers red green blue alpha

/-- What is read is the colour of the components that are found. -/
lemma Form.read_of_leftmost? {rest : Text} {c : Components} (hform : form ≠ .hex)
    (h : Components.leftmost? form.components? s = some (c, rest)) :
    form.read s = form.readComponents c := by
  cases form with
  | hex => exact absurd rfl hform
  | rgb | hsl | oklch =>
      rw [Form.components?] at h
      simp only [Form.read, Rgb.read, Hsl.read, Oklch.read, h, Form.readComponents]

/-- What is read depends on the components that are found. -/
lemma Form.read_congr {s' rest rest' : Text} {c : Components} (hform : form ≠ .hex)
    (h : Components.leftmost? form.components? s = some (c, rest))
    (h' : Components.leftmost? form.components? s' = some (c, rest')) :
    form.read s = form.read s' := by
  rw [read_of_leftmost? hform h, read_of_leftmost? hform h']

/-- Nothing is read if nothing is found. -/
lemma Form.read_of_none (hform : form ≠ .hex)
    (h : Components.leftmost? form.components? s = none) : form.read s = .ok none := by
  cases form with
  | hex => exact absurd rfl hform
  | rgb | hsl | oklch =>
      rw [Form.components?] at h
      simp only [Form.read, Rgb.read, Hsl.read, Oklch.read, h]

end Search

/-! ### The shape of a function -/

/-- A word that may stand in a text and does not hold a character. -/
lemma notMem_optional {word o : Text} {c : Char} (ho : o = [] ∨ o = word) (hc : c ∉ word) :
    c ∉ o := by
  rcases ho with rfl | rfl
  · exact List.not_mem_nil
  · exact hc

/-- Whether a character may stand in the argument of a function. -/
def isArgumentChar (c : Char) : Bool :=
  isDecimalChar c || isHueSeparator c || ['-', '%', '/', 'd', 'e', 'g'].contains c

/-- A character that stands in no argument stands in no part of one. -/
lemma of_isArgumentChar_eq_false {d : Char} (h : isArgumentChar d = false) :
    isDecimalChar d = false ∧ isHueSeparator d = false ∧ isSeparator d = false ∧
      isBlank d = false ∧ isAlphaMark d = false ∧ d ≠ '-' ∧ d ≠ '%' ∧ d ∉ "deg".toList := by
  simp only [isArgumentChar, isHueSeparator, isSeparator, List.contains_cons, List.contains_nil,
    Bool.or_false, Bool.or_eq_false_iff, beq_eq_false_iff_ne, decide_eq_false_iff_not] at h
  obtain ⟨⟨hdecimal, hmark, hcomma, hblank⟩, hminus, hpercent, hslash, hd, he, hg⟩ := h
  simp [isHueSeparator, isSeparator, isAlphaMark, hdecimal, hmark, hcomma, hblank, hminus, hpercent,
    hslash, hd, he, hg]

/-- A function is its name and an argument in parentheses. -/
lemma Form.IsFunction.exists_argument {form : Form} {c : Components} {text : Text}
    (h : form.IsFunction c text) : ∃ name argument, name ∈ form.keywords ∧ argument ≠ [] ∧
      (∀ d, isArgumentChar d = false → d ∉ argument) ∧
      text = name ++ '(' :: (argument ++ [')']) := by
  cases form with
  | hex => exact absurd h id
  | rgb =>
      cases h with
      | @intro name first gap second gap' third part alpha hname hfirst hgap hsecond hgap' hthird
          hpart =>
          refine ⟨name, first ++ (gap ++ (second ++ (gap' ++ (third ++ part)))), hname,
            by simp [hgap.1], fun d hd => ?_, by simp⟩
          obtain ⟨hdecimal, -, hseparator, hblank, hmark, hminus, hpercent, -⟩ :=
            of_isArgumentChar_eq_false hd
          have hdigit := isDigit_of_isDecimalChar_eq_false hdecimal
          simp only [List.mem_append, not_or]
          exact ⟨hfirst.notMem hdigit hminus, hgap.notMem hseparator, hsecond.notMem hdigit hminus,
            hgap'.notMem hseparator, hthird.notMem hdigit hminus,
            hpart.notMem hblank hmark hdecimal hpercent⟩
  | hsl =>
      cases h with
      | @intro name first unit gap second percent gap' third percent' part alpha hname hfirst hunit
          hgap hsecond hpercent hgap' hthird hpercent' hpart =>
          refine ⟨name, first ++ (unit ++ (gap ++ (second ++ (percent ++ (gap' ++ (third ++
            (percent' ++ part))))))), hname, by simp [hgap.1], fun d hd => ?_, by simp⟩
          obtain ⟨hdecimal, hhue, hseparator, hblank, hmark, -, hsign, hdeg⟩ :=
            of_isArgumentChar_eq_false hd
          have hsign' : d ∉ ['%'] := by simpa using hsign
          simp only [List.mem_append, not_or]
          exact ⟨hfirst.notMem (isDigit_of_isDecimalChar_eq_false hdecimal),
            notMem_optional hunit hdeg, hgap.notMem hhue, hsecond.notMem hdecimal,
            notMem_optional hpercent hsign', hgap'.notMem hseparator, hthird.notMem hdecimal,
            notMem_optional hpercent' hsign', hpart.notMem hblank hmark hdecimal hsign⟩
  | oklch =>
      cases h with
      | @intro name before first percent gap second gap' third unit part after alpha hname hbefore
          hfirst hpercent hgap hsecond hgap' hthird hunit hpart hafter =>
          refine ⟨name, before ++ (first ++ (percent ++ (gap ++ (second ++ (gap' ++ (third ++ (unit
            ++ (part ++ after)))))))), hname, by simp [hgap.1], fun d hd => ?_, by simp⟩
          obtain ⟨hdecimal, -, -, hblank, hmark, -, hsign, hdeg⟩ := of_isArgumentChar_eq_false hd
          have hsign' : d ∉ ['%'] := by simpa using hsign
          have hslash : decide (d = '/') = false := (Bool.or_eq_false_iff.mp hmark).2
          simp only [List.mem_append, not_or]
          exact ⟨hbefore.notMem hblank, hfirst.notMem hdecimal, notMem_optional hpercent hsign',
            hgap.notMem hblank, hsecond.notMem hdecimal, hgap'.notMem hblank,
            hthird.notMem hdecimal, notMem_optional hunit hdeg,
            hpart.notMem hblank hslash hdecimal hsign, hafter.notMem hblank⟩

/-- A function has one parenthesis of each kind, the closing one at its end. -/
lemma Form.IsFunction.shape {form : Form} {c : Components} {text : Text}
    (h : form.IsFunction c text) : ∃ name argument, name ∈ form.keywords ∧ argument ≠ [] ∧
      '(' ∉ argument ∧ ')' ∉ argument ∧ text = name ++ '(' :: (argument ++ [')']) := by
  obtain ⟨name, argument, hname, hne, hargument, rfl⟩ := h.exists_argument
  exact ⟨name, argument, hname, hne, hargument _ (by decide), hargument _ (by decide), rfl⟩

lemma lowerLetter_of_isArgumentChar {d : Char} (h : isArgumentChar d = true) :
    lowerLetter d = d := by
  have hkelvin : d ≠ kelvinSign := by
    rintro rfl
    exact absurd h (by decide)
  have hl := toNat_toLower d
  rw [show lowerLetter d = d.toLower from if_neg hkelvin, ← Char.toNat_inj]
  by_contra hne
  have hcapital : 65 ≤ d.toNat ∧ d.toNat ≤ 90 := by split at hl <;> omega
  -- a capital letter stands in no argument
  have hnone : ∀ k < 26, isArgumentChar (Char.ofNat (65 + k)) = false := by decide
  have hd := hnone (d.toNat - 65) (by omega)
  rw [show 65 + (d.toNat - 65) = d.toNat by omega, Char.ofNat_toNat, h] at hd
  exact absurd hd (by simp)

/-- A function is in lower case. -/
lemma Form.IsFunction.lower_eq {form : Form} {c : Components} {text : Text}
    (h : form.IsFunction c text) : Text.lower text = text := by
  obtain ⟨name, argument, hname, -, hargument, rfl⟩ := h.exists_argument
  refine Text.lower_eq_self fun d hd => ?_
  simp only [List.mem_append, List.mem_cons, List.not_mem_nil, or_false] at hd
  rcases hd with hd | rfl | hd | rfl
  · exact lowerLetter_of_isLowerLetter (Form.isLowerLetter_of_mem_keywords hname d hd)
  · decide
  · refine lowerLetter_of_isArgumentChar ?_
    rw [← Bool.not_eq_false]
    exact fun hfalse => hargument d hfalse hd
  · decide

/-- No keyword ends with another one. -/
lemma Form.keywords_suffix {form form' : Form} : ∀ name ∈ form.keywords,
    ∀ name' ∈ form'.keywords, name <:+ name' → name = name' := by
  cases form <;> cases form' <;> decide

lemma Form.keywords_suffix_unique {form : Form} {name name' front front' : Text}
    (hname : name ∈ form.keywords) (hname' : name' ∈ form.keywords)
    (h : front ++ name = front' ++ name') : front = front' ∧ name = name' := by
  have hsame : name = name' := by
    have hsuffix : name <:+ front' ++ name' := ⟨front, h⟩
    rcases List.suffix_or_suffix_of_suffix hsuffix (List.suffix_append front' name') with h' | h'
    · exact keywords_suffix name hname name' hname' h'
    · exact (keywords_suffix name' hname' name hname h').symm
  subst hsame
  exact ⟨List.append_cancel_right h, rfl⟩

/-- A text ends with at most one function of a form. -/
lemma Form.IsFunction.unique_suffix {form : Form} {c c' : Components}
    {front front' text text' : Text} (h : form.IsFunction c text) (h' : form.IsFunction c' text')
    (heq : front ++ text = front' ++ text') : front = front' ∧ text = text' ∧ c = c' := by
  obtain ⟨name, argument, hname, -, hopen, -, rfl⟩ := h.shape
  obtain ⟨name', argument', hname', -, hopen', -, rfl⟩ := h'.shape
  rw [← List.append_assoc, ← List.append_assoc] at heq
  obtain ⟨hfront, htail⟩ := Text.append_cons_inj_right (by simp [hopen]) (by simp [hopen']) heq
  obtain ⟨rfl, rfl⟩ := Form.keywords_suffix_unique hname hname' hfront
  rw [← htail] at h' ⊢
  exact ⟨rfl, rfl, h.components_unique h'⟩

end Swatch
