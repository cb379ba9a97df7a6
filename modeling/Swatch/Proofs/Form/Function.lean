import Swatch.Form.Hsl
import Swatch.Form.Oklch
import Swatch.Form.Rgb
import Swatch.Proofs.Form.Parts
import Swatch.Proofs.Literal.Grammar
/-!
The colour functions, said without their readers.

* `Rgb.IsFunction`, `Hsl.IsFunction`, `Oklch.IsFunction`: a text is a function whose components are
  written as the given texts.
* `components?_eq_some_iff`: the reader of each function finds a function at the start of a text,
  with its components and what follows it, just if one stands there.  A reader has one result, so a
  function stands there in one way.
-/

namespace Swatch

open Parts

/-- A comma or a slash, which may stand in front of an alpha. -/
def isAlphaMark (c : Char) : Bool := c = ',' || c = '/'

/-- A text is an `rgb` function of three integers between separators. -/
inductive Rgb.IsFunction : Components → Text → Prop where
  | intro {name first gap second gap' third part : Text} {alpha : Option Text}
      (hname : name ∈ Form.rgb.keywords) (hfirst : IsInteger first)
      (hgap : IsRun isSeparator gap) (hsecond : IsInteger second)
      (hgap' : IsRun isSeparator gap') (hthird : IsInteger third)
      (hpart : IsAlphaPart isAlphaMark alpha part) :
      IsFunction ⟨first, second, third, alpha⟩
        (name ++ '(' :: (first ++ (gap ++ (second ++ (gap' ++ (third ++ (part ++ [')'])))))))

/-- A character between the hue and the saturation. -/
def isHueSeparator (c : Char) : Bool := c = '?' || isSeparator c

/-- A text is an `hsl` function of an integer and two numbers. -/
inductive Hsl.IsFunction : Components → Text → Prop where
  | intro {name first unit gap second percent gap' third percent' part : Text}
      {alpha : Option Text} (hname : name ∈ Form.hsl.keywords)
      (hfirst : IsRun Char.isDigit first) (hunit : unit = [] ∨ unit = "deg".toList)
      (hgap : IsRun isHueSeparator gap) (hsecond : IsDecimal second)
      (hpercent : percent = [] ∨ percent = ['%']) (hgap' : IsRun isSeparator gap')
      (hthird : IsDecimal third) (hpercent' : percent' = [] ∨ percent' = ['%'])
      (hpart : IsAlphaPart isAlphaMark alpha part) :
      IsFunction ⟨first, second, third, alpha⟩
        (name ++ '(' :: (first ++ (unit ++ (gap ++ (second ++ (percent ++ (gap' ++ (third ++
          (percent' ++ (part ++ [')']))))))))))

/-- A text is an `oklch` function of three numbers between blanks. -/
inductive Oklch.IsFunction : Components → Text → Prop where
  | intro {name before first percent gap second gap' third unit part after : Text}
      {alpha : Option Text} (hname : name ∈ Form.oklch.keywords) (hbefore : IsBlanks before)
      (hfirst : IsDecimal first) (hpercent : percent = [] ∨ percent = ['%'])
      (hgap : IsRun isBlank gap) (hsecond : IsDecimal second) (hgap' : IsRun isBlank gap')
      (hthird : IsDecimal third) (hunit : unit = [] ∨ unit = "deg".toList)
      (hpart : IsAlphaPart (· = '/') alpha part) (hafter : IsBlanks after) :
      IsFunction ⟨first, second, third, alpha⟩
        (name ++ '(' :: (before ++ (first ++ (percent ++ (gap ++ (second ++ (gap' ++ (third ++
          (unit ++ (part ++ (after ++ [')'])))))))))))

/-! ### What comes next -/

/-- The mark in front of an alpha is not one of the blanks around it. -/
lemma isBlank_of_isAlphaMark {c : Char} (h : isAlphaMark c = true) : isBlank c = false := by
  rw [isAlphaMark, Bool.or_eq_true, decide_eq_true_eq, decide_eq_true_eq] at h
  rcases h with rfl | rfl <;> decide

lemma isDecimalChar_of_isAlphaMark {c : Char} (h : isAlphaMark c = true) :
    isDecimalChar c = false := by
  rw [isAlphaMark, Bool.or_eq_true, decide_eq_true_eq, decide_eq_true_eq] at h
  rcases h with rfl | rfl <;> decide

lemma isDigit_of_isDecimalChar_eq_false {c : Char} (h : isDecimalChar c = false) :
    c.isDigit = false := by
  by_contra hne
  rw [Bool.not_eq_false] at hne
  rw [isDecimalChar_of_isDigit hne] at h
  exact absurd h (by simp)

lemma isDecimalChar_of_isBlank {c : Char} (h : isBlank c = true) : isDecimalChar c = false :=
  isDecimalChar_of_isSeparator (isSeparator_of_isBlank h)

/-- The names that open a function are the keywords of its form. -/
lemma open?_keywords {form : Form} {word s rest : Text} {twoNames : Bool}
    (hform : ∀ name, name ∈ form.keywords ↔ name = word ∨ twoNames ∧ name = word ++ ['a']) :
    open? word twoNames s = some rest ↔ ∃ name ∈ form.keywords, s = name ++ '(' :: rest := by
  simp only [open?_eq_some_iff, hform]

/-! ### Reading an `rgb` function -/

namespace Rgb

lemma keywords (name : Text) : name ∈ Form.rgb.keywords ↔
    name = "rgb".toList ∨ true ∧ name = "rgb".toList ++ ['a'] := by
  simp [Form.keywords]

/-- What the reader finds is a function at the start of the text. -/
lemma exists_of_components? {s rest : Text} {c : Components} (h : components? s = some (c, rest)) :
    ∃ text, IsFunction c text ∧ s = text ++ rest := by
  simp only [components?, Option.bind_eq_bind, Option.bind_eq_some_iff, Option.pure_def,
    Option.some.injEq, Prod.exists, Prod.mk.injEq] at h
  obtain ⟨s₁, h₁, first, s₂, h₂, s₃, h₃, second, s₄, h₄, s₅, h₅, third, s₆, h₆, alpha, s₇, h₇,
    rfl, rfl⟩ := h
  obtain ⟨rfl, hfirst, -⟩ := integer?_eq_some_iff.mp h₂
  obtain ⟨gap, rfl, hgap, -⟩ := skipRun?_eq_some_iff.mp h₃
  obtain ⟨rfl, hsecond, -⟩ := integer?_eq_some_iff.mp h₄
  obtain ⟨gap', rfl, hgap', -⟩ := skipRun?_eq_some_iff.mp h₅
  obtain ⟨rfl, hthird, -⟩ := integer?_eq_some_iff.mp h₆
  obtain ⟨part, hpart, rfl⟩ := (alphaAndClose?_eq_some_iff
    (fun c => isBlank_of_isAlphaMark (c := c)) (by decide)).mp h₇
  obtain ⟨name, hname, rfl⟩ := (open?_keywords keywords).mp h₁
  exact ⟨_, .intro hname hfirst hgap hsecond hgap' hthird hpart, by simp⟩

/-- A function at the start of a text is read, and what follows it is left over. -/
lemma components?_append {text : Text} {c : Components} (h : IsFunction c text) (rest : Text) :
    components? (text ++ rest) = some (c, rest) := by
  cases h with
  | @intro name first gap second gap' third part alpha hname hfirst hgap hsecond hgap' hthird
      hpart =>
      -- each number ends at the separators behind it, and these at the number behind them
      have hseparator (s : Text) (hs : IsInteger s) (t : Text) :
          Text.Stops isSeparator (s ++ t) :=
        hs.stops (by decide) (fun c hc =>
          isSeparator_of_isDecimalChar (isDecimalChar_of_isDigit hc)) t
      have hdigit (s : Text) (hs : IsRun isSeparator s) (t : Text) :
          Text.Stops Char.isDigit (s ++ t) := hs.stops (fun _ => isDigit_of_isSeparator) t
      have hend : Text.Stops Char.isDigit (part ++ ')' :: rest) :=
        hpart.stops
          (fun _ hc => isDigit_of_isDecimalChar_eq_false (isDecimalChar_of_isBlank hc))
          (fun _ hc => isDigit_of_isDecimalChar_eq_false (isDecimalChar_of_isAlphaMark hc))
          (Text.stops_cons.mpr (by decide))
      simp only [components?, Option.bind_eq_bind, Option.bind_eq_some_iff, Option.pure_def,
        Option.some.injEq, Prod.exists, Prod.mk.injEq, List.append_assoc, List.cons_append]
      exact ⟨_, (open?_keywords keywords).mpr ⟨name, hname, rfl⟩,
        first, _, integer?_eq_some_iff.mpr ⟨rfl, hfirst, hdigit _ hgap _⟩,
        _, skipRun?_eq_some_iff.mpr ⟨gap, rfl, hgap, hseparator _ hsecond _⟩,
        second, _, integer?_eq_some_iff.mpr ⟨rfl, hsecond, hdigit _ hgap' _⟩,
        _, skipRun?_eq_some_iff.mpr ⟨gap', rfl, hgap', hseparator _ hthird _⟩,
        third, _, integer?_eq_some_iff.mpr ⟨rfl, hthird, hend⟩,
        alpha, rest, (alphaAndClose?_eq_some_iff (fun c => isBlank_of_isAlphaMark (c := c))
          (by decide)).mpr ⟨part, hpart, rfl⟩, rfl, rfl⟩

/-- The reader of `rgb` finds the functions that stand at the start of a text. -/
theorem components?_eq_some_iff {s rest : Text} {c : Components} :
    components? s = some (c, rest) ↔ ∃ text, IsFunction c text ∧ s = text ++ rest := by
  constructor
  · exact exists_of_components?
  · rintro ⟨text, h, rfl⟩
    exact components?_append h rest

end Rgb

/-! ### Reading an `hsl` function -/

lemma isHueSeparator_of_isDecimalChar {c : Char} (h : isDecimalChar c = true) :
    isHueSeparator c = false := by
  have hne : c ≠ '?' := by
    rintro rfl
    exact absurd h (by decide)
  simp [isHueSeparator, hne, isSeparator_of_isDecimalChar h]

lemma isDigit_of_isHueSeparator {c : Char} (h : isHueSeparator c = true) :
    c.isDigit = false := by
  by_contra hne
  rw [Bool.not_eq_false] at hne
  rw [isHueSeparator_of_isDecimalChar (isDecimalChar_of_isDigit hne)] at h
  exact absurd h (by simp)

namespace Hsl

lemma keywords (name : Text) : name ∈ Form.hsl.keywords ↔
    name = "hsl".toList ∨ true ∧ name = "hsl".toList ++ ['a'] := by
  simp [Form.keywords]

/-- What the reader finds is a function at the start of the text. -/
lemma exists_of_components? {s rest : Text} {c : Components} (h : components? s = some (c, rest)) :
    ∃ text, IsFunction c text ∧ s = text ++ rest := by
  simp only [components?, Option.bind_eq_bind, Option.bind_eq_some_iff, Option.pure_def,
    Option.some.injEq, Prod.exists, Prod.mk.injEq, Text.dropOptional_eq] at h
  obtain ⟨s₁, h₁, first, s₂, h₂, s₃, h₃, second, s₄, h₄, s₅, h₅, third, s₆, h₆, alpha, s₇, h₇,
    rfl, rfl⟩ := h
  obtain ⟨name, hname, rfl⟩ := (open?_keywords keywords).mp h₁
  obtain ⟨rfl, hne, hdigits, -⟩ := Text.run?_eq_some_iff.mp h₂
  obtain ⟨unit, hunit, hs₂⟩ := Text.exists_dropOptionalWord "deg".toList s₂
  obtain ⟨gap, hgap_eq, hgap, -⟩ := skipRun?_eq_some_iff.mp h₃
  obtain ⟨rfl, hsecond, -⟩ := decimal?_eq_some_iff.mp h₄
  obtain ⟨percent, hpercent, hs₄⟩ := Text.exists_dropOptionalWord ['%'] s₄
  obtain ⟨gap', hgap'_eq, hgap', -⟩ := skipRun?_eq_some_iff.mp h₅
  obtain ⟨rfl, hthird, -⟩ := decimal?_eq_some_iff.mp h₆
  obtain ⟨percent', hpercent', hs₆⟩ := Text.exists_dropOptionalWord ['%'] s₆
  obtain ⟨part, hpart, hpart_eq⟩ := (alphaAndClose?_eq_some_iff
    (fun c => isBlank_of_isAlphaMark (c := c)) (by decide)).mp h₇
  refine ⟨_, .intro hname ⟨hne, hdigits⟩ hunit hgap hsecond hpercent hgap' hthird hpercent'
    hpart, ?_⟩
  rw [hs₂, hgap_eq, hs₄, hgap'_eq, hs₆, hpart_eq]
  simp

/-- A function at the start of a text is read, and what follows it is left over. -/
lemma components?_append {text : Text} {c : Components} (h : IsFunction c text) (rest : Text) :
    components? (text ++ rest) = some (c, rest) := by
  cases h with
  | @intro name first unit gap second percent gap' third percent' part alpha hname hfirst hunit
      hgap hsecond hpercent hgap' hthird hpercent' hpart =>
      -- the digits of the hue end at its unit, or at the separators
      have hfirst' (t : Text) : Text.run? Char.isDigit (first ++ (unit ++ (gap ++ t)))
          = some (first, unit ++ (gap ++ t)) :=
        Text.run?_eq_some_iff.mpr ⟨rfl, hfirst.1, hfirst.2, Text.stops_optional hunit (by decide)
          (hgap.stops (fun _ => isDigit_of_isHueSeparator) t)⟩
      have hskip (t : Text) : skipRun? isHueSeparator (Text.dropOptionalWord "deg".toList
          (unit ++ (gap ++ (second ++ t)))) = some (second ++ t) := by
        have hunit' := Text.dropOptionalWord_append (t := gap ++ (second ++ t)) hunit
          (hgap.stops (decide_eq_false_of_class (by decide)) _)
        refine skipRun?_eq_some_iff.mpr ⟨gap, hunit', hgap, ?_⟩
        exact hsecond.stops (fun _ => isHueSeparator_of_isDecimalChar) t
      have hsecond' (t : Text) : decimal? (second ++ (percent ++ (gap' ++ t)))
          = some (second, percent ++ (gap' ++ t)) :=
        decimal?_eq_some_iff.mpr ⟨rfl, hsecond, Text.stops_optional hpercent (by decide)
          (hgap'.stops (fun _ => isDecimalChar_of_isSeparator) t)⟩
      have hskip' (t : Text) : skipRun? isSeparator (Text.dropOptionalWord ['%']
          (percent ++ (gap' ++ (third ++ t)))) = some (third ++ t) := by
        have hpercent' := Text.dropOptionalWord_append (t := gap' ++ (third ++ t)) hpercent
          (hgap'.stops (decide_eq_false_of_class (by decide)) _)
        refine skipRun?_eq_some_iff.mpr ⟨gap', hpercent', hgap', ?_⟩
        exact hthird.stops (fun _ => isSeparator_of_isDecimalChar) t
      have hthird' : decimal? (third ++ (percent' ++ (part ++ ')' :: rest)))
          = some (third, percent' ++ (part ++ ')' :: rest)) :=
        decimal?_eq_some_iff.mpr ⟨rfl, hthird, Text.stops_optional hpercent' (by decide)
          (hpart.stops (fun _ => isDecimalChar_of_isBlank)
            (fun _ => isDecimalChar_of_isAlphaMark) (Text.stops_cons.mpr (by decide)))⟩
      have hend : alphaAndClose? isAlphaMark (Text.dropOptionalWord ['%']
          (percent' ++ (part ++ ')' :: rest))) = some (alpha, rest) := by
        rw [Text.dropOptionalWord_append hpercent' (hpart.stops
          (decide_eq_false_of_class (by decide)) (decide_eq_false_of_class (by decide))
          (Text.stops_cons.mpr (by decide)))]
        exact (alphaAndClose?_eq_some_iff (fun c => isBlank_of_isAlphaMark (c := c))
          (by decide)).mpr ⟨part, hpart, rfl⟩
      simp only [components?, Option.bind_eq_bind, Option.bind_eq_some_iff, Option.pure_def,
        Option.some.injEq, Prod.exists, Prod.mk.injEq, Text.dropOptional_eq, List.append_assoc,
        List.cons_append]
      exact ⟨_, (open?_keywords keywords).mpr ⟨name, hname, rfl⟩, first, _, hfirst' _, _, hskip _,
        second, _, hsecond' _, _, hskip' _, third, _, hthird', alpha, rest, hend, rfl, rfl⟩

/-- The reader of `hsl` finds the functions that stand at the start of a text. -/
theorem components?_eq_some_iff {s rest : Text} {c : Components} :
    components? s = some (c, rest) ↔ ∃ text, IsFunction c text ∧ s = text ++ rest := by
  constructor
  · exact exists_of_components?
  · rintro ⟨text, h, rfl⟩
    exact components?_append h rest

end Hsl

/-! ### Reading an `oklch` function -/

namespace Oklch

lemma keywords (name : Text) : name ∈ Form.oklch.keywords ↔
    name = "oklch".toList ∨ false ∧ name = "oklch".toList ++ ['a'] := by
  simp [Form.keywords]

/-- What the reader finds is a function at the start of the text. -/
lemma exists_of_components? {s rest : Text} {c : Components} (h : components? s = some (c, rest)) :
    ∃ text, IsFunction c text ∧ s = text ++ rest := by
  simp only [components?, Option.bind_eq_bind, Option.bind_eq_some_iff, Option.pure_def,
    Prod.exists, Text.dropOptional_eq] at h
  obtain ⟨s₁, h₁, first, s₂, h₂, s₃, h₃, second, s₄, h₄, s₅, h₅, third, s₆, h₆, h₇⟩ := h
  obtain ⟨name, hname, rfl⟩ := (open?_keywords keywords).mp h₁
  obtain ⟨before, hbefore, hs₁, -⟩ := exists_skipBlanks s₁
  obtain ⟨hs₁', hfirst, -⟩ := decimal?_eq_some_iff.mp h₂
  obtain ⟨percent, hpercent, hs₂⟩ := Text.exists_dropOptionalWord ['%'] s₂
  obtain ⟨gap, hgap_eq, hgap, -⟩ := skipRun?_eq_some_iff.mp h₃
  obtain ⟨rfl, hsecond, -⟩ := decimal?_eq_some_iff.mp h₄
  obtain ⟨gap', rfl, hgap', -⟩ := skipRun?_eq_some_iff.mp h₅
  obtain ⟨rfl, hthird, -⟩ := decimal?_eq_some_iff.mp h₆
  obtain ⟨unit, hunit, hs₆⟩ := Text.exists_dropOptionalWord "deg".toList s₆
  obtain ⟨blanks, hblanks, hs₆', -⟩ :=
    exists_skipBlanks (Text.dropOptionalWord "deg".toList s₆)
  rw [hs₁, hs₁', hs₂, hgap_eq, hs₆, hs₆']
  split at h₇
  · next r hr =>
    -- an alpha behind a slash
    simp only [Option.bind_eq_some_iff, Option.some.injEq, Prod.exists, Prod.mk.injEq] at h₇
    obtain ⟨found, t, hfound, rest', hrest, rfl, rfl⟩ := h₇
    obtain ⟨blanks', hblanks', hr', -⟩ := exists_skipBlanks r
    obtain ⟨hfound_eq, hpercentage⟩ := isPercentage_of_percentage? hfound
    obtain ⟨after, hafter, ht, -⟩ := exists_skipBlanks t
    rw [Text.dropWord?_eq_some_iff] at hrest
    refine ⟨_, .intro hname hbefore hfirst hpercent hgap hsecond hgap' hthird hunit
      (.some hblanks (by decide : decide ('/' = '/') = true) hblanks' hpercentage) hafter, ?_⟩
    rw [hr, hr', hfound_eq, ht, hrest]
    simp
  · simp only [Option.bind_eq_some_iff, Option.some.injEq, Prod.mk.injEq] at h₇
    obtain ⟨rest', hrest, rfl, rfl⟩ := h₇
    rw [Text.dropWord?_eq_some_iff] at hrest
    refine ⟨_, .intro hname hbefore hfirst hpercent hgap hsecond hgap' hthird hunit .none
      hblanks, ?_⟩
    rw [hrest]
    simp

/-- A function at the start of a text is read, and what follows it is left over. -/
lemma components?_append {text : Text} {c : Components} (h : IsFunction c text) (rest : Text) :
    components? (text ++ rest) = some (c, rest) := by
  cases h with
  | @intro name before first percent gap second gap' third unit part after alpha hname hbefore
      hfirst hpercent hgap hsecond hgap' hthird hunit hpart hafter =>
      have hfirst' (t : Text) :
          decimal? (skipBlanks (before ++ (first ++ (percent ++ (gap ++ t)))))
            = some (first, percent ++ (gap ++ t)) := by
        rw [skipBlanks_append hbefore (hfirst.stops (fun _ => isBlank_of_isDecimalChar) _)]
        exact decimal?_eq_some_iff.mpr ⟨rfl, hfirst, Text.stops_optional hpercent (by decide)
          (hgap.stops (fun _ => isDecimalChar_of_isBlank) t)⟩
      have hskip (t : Text) : skipRun? isBlank (Text.dropOptionalWord ['%']
          (percent ++ (gap ++ (second ++ t)))) = some (second ++ t) := by
        have hpercent' := Text.dropOptionalWord_append (t := gap ++ (second ++ t)) hpercent
          (hgap.stops (decide_eq_false_of_class (by decide)) _)
        refine skipRun?_eq_some_iff.mpr ⟨gap, hpercent', hgap, ?_⟩
        exact hsecond.stops (fun _ => isBlank_of_isDecimalChar) t
      have hsecond' (t : Text) : decimal? (second ++ (gap' ++ t)) = some (second, gap' ++ t) :=
        decimal?_eq_some_iff.mpr ⟨rfl, hsecond,
          hgap'.stops (fun _ => isDecimalChar_of_isBlank) t⟩
      have hskip' (t : Text) : skipRun? isBlank (gap' ++ (third ++ t)) = some (third ++ t) :=
        skipRun?_eq_some_iff.mpr ⟨gap', rfl, hgap',
          hthird.stops (fun _ => isBlank_of_isDecimalChar) t⟩
      have hclose {q : Char → Bool} (hblank : ∀ c, isBlank c = true → q c = false)
          (hq : q ')' = false) : Text.Stops q (after ++ ')' :: rest) :=
        hafter.stops hblank (Text.stops_cons.mpr hq)
      have hslash {q : Char → Bool} (hq : q '/' = false) (c : Char)
          (hc : decide (c = '/') = true) : q c = false := by
        rw [decide_eq_true_eq] at hc
        rw [hc, hq]
      have hthird' : decimal? (third ++ (unit ++ (part ++ (after ++ ')' :: rest))))
          = some (third, unit ++ (part ++ (after ++ ')' :: rest))) :=
        decimal?_eq_some_iff.mpr ⟨rfl, hthird, Text.stops_optional hunit (by decide)
          (hpart.stops (fun _ => isDecimalChar_of_isBlank) (hslash (by decide))
            (hclose (fun _ => isDecimalChar_of_isBlank) (by decide)))⟩
      have hunit' : Text.dropOptionalWord "deg".toList (unit ++ (part ++ (after ++ ')' :: rest)))
          = part ++ (after ++ ')' :: rest) :=
        Text.dropOptionalWord_append hunit (hpart.stops (decide_eq_false_of_class (by decide))
          (hslash (by decide)) (hclose (decide_eq_false_of_class (by decide)) (by decide)))
      have hafter' : skipBlanks (after ++ ')' :: rest) = ')' :: rest :=
        skipBlanks_append hafter (Text.stops_cons.mpr (by decide))
      have hdrop : Text.dropWord? [')'] (')' :: rest) = some rest :=
        Text.dropWord?_append [')'] rest
      simp only [components?, Option.bind_eq_bind, Option.bind_eq_some_iff, Option.pure_def,
        Prod.exists, Text.dropOptional_eq, List.append_assoc, List.cons_append]
      refine ⟨_, (open?_keywords keywords).mpr ⟨name, hname, rfl⟩, first, _, hfirst' _, _,
        hskip _, second, _, hsecond' _, _, hskip' _, third, _, hthird', ?_⟩
      rw [hunit']
      cases hpart with
      | none =>
          rw [List.nil_append, hafter']
          simp [hdrop]
      | @some blanks blanks' found mark hblanks hmark hblanks' hfound =>
          rw [decide_eq_true_eq] at hmark
          subst hmark
          have hskip₁ : skipBlanks (blanks ++ '/' :: (blanks' ++ found) ++ (after ++ ')' :: rest))
              = '/' :: (blanks' ++ (found ++ (after ++ ')' :: rest))) := by
            simp only [List.append_assoc, List.cons_append]
            exact skipBlanks_append hblanks (Text.stops_cons.mpr (by decide))
          have hskip₂ : skipBlanks (blanks' ++ (found ++ (after ++ ')' :: rest)))
              = found ++ (after ++ ')' :: rest) :=
            skipBlanks_append hblanks' (hfound.stops (fun _ => isBlank_of_isDecimalChar) _)
          have hstop : Text.Stops endsPercentage (after ++ ')' :: rest) := by
            refine hclose (fun c hc => ?_) (by decide)
            rw [endsPercentage, isDecimalChar_of_isBlank hc, Bool.false_or]
            exact decide_eq_false_of_class (by decide) c hc
          rw [hskip₁]
          simp [hskip₂, percentage?_append hfound hstop, hafter', hdrop]

/-- The reader of `oklch` finds the functions that stand at the start of a text. -/
theorem components?_eq_some_iff {s rest : Text} {c : Components} :
    components? s = some (c, rest) ↔ ∃ text, IsFunction c text ∧ s = text ++ rest := by
  constructor
  · exact exists_of_components?
  · rintro ⟨text, h, rfl⟩
    exact components?_append h rest

end Oklch

end Swatch
