import Swatch.Proofs.Color.Sample
import Swatch.Proofs.Decimal.Reading
import Swatch.Proofs.Form.Search
/-!
What is read of a function: the leftmost one of a text, and the numbers that its components are.

* `Form.integers`, `Form.decimals`: the texts that a function shows as integers, and as digits and
  points.
* `Form.IsFunction.isInteger`, `Form.IsFunction.isDecimal`, `Form.IsFunction.isPercentage`: how
  these and the alpha are written.
* `Form.exists_of_readComponents`: a colour is read only of components that are numbers, and has the
  alpha that they show.
* `Form.read_function`: what is read of a text, by the functions that stand in it.
-/

namespace Swatch

open Binary64 Parts

variable {form : Form} {c : Components}

/-! ### The texts of the components -/

/-- The texts that a function shows as integers. -/
def Form.integers : Form → Components → List Text
  | .hex, _ | .oklch, _ => []
  | .rgb, c => [c.first, c.second, c.third]
  | .hsl, c => [c.first]

/-- The texts that a function shows as digits and points. -/
def Form.decimals : Form → Components → List Text
  | .hex, _ | .rgb, _ => []
  | .hsl, c => [c.second, c.third]
  | .oklch, c => [c.first, c.second, c.third]

namespace Form.IsFunction

lemma isInteger {text : Text} (h : form.IsFunction c text) :
    ∀ t ∈ form.integers c, IsInteger t := by
  cases form with
  | hex => exact absurd h id
  | rgb =>
      cases h
      simp only [integers, List.mem_cons, List.not_mem_nil, or_false]
      rintro t (rfl | rfl | rfl) <;> assumption
  | hsl =>
      cases h with
      | intro _ hfirst =>
          simp only [integers, List.mem_singleton]
          rintro t rfl
          exact .plain hfirst
  | oklch => simp [integers]

lemma isDecimal {text : Text} (h : form.IsFunction c text) :
    ∀ t ∈ form.decimals c, IsDecimal t := by
  cases form with
  | hex => exact absurd h id
  | rgb => simp [decimals]
  | hsl | oklch =>
      cases h
      simp only [decimals, List.mem_cons, List.not_mem_nil, or_false]
      rintro t (rfl | rfl | rfl) <;> assumption

/-- The alpha of a function is written as a number or a percentage. -/
lemma isPercentage {text : Text} (h : form.IsFunction c text) : ∀ a ∈ c.alpha, IsPercentage a := by
  have hpart {isMark : Char → Bool} {alpha : Option Text} {part : Text}
      (h : IsAlphaPart isMark alpha part) : ∀ a ∈ alpha, IsPercentage a := by
    intro a ha
    cases h with
    | none => exact absurd ha (by simp)
    | some _ _ _ halpha => rwa [← Option.some.inj (Option.mem_def.mp ha)]
  cases form with
  | hex => exact absurd h id
  | rgb | hsl | oklch =>
      cases h
      exact hpart ‹_›

end Form.IsFunction

/-! ### The colour of the components -/

namespace Form

variable [Elementary]

/-- A colour is read only of components that are numbers, and has the alpha that they show. -/
lemma exists_of_readComponents (hform : form ≠ .hex) {r : Option Sample}
    (h : form.readComponents c = .ok r) :
    (∀ t ∈ form.integers c, ∃ n, readInteger t = .ok n) ∧
      (∀ t ∈ form.decimals c, ∃ x, readNumber t = .ok x) ∧
      ∃ red green blue alpha sample, readAlpha c.alpha = .ok alpha ∧
        Sample.ofIntegers red green blue alpha = .ok sample ∧ r = some sample := by
  cases form with
  | hex => exact absurd rfl hform
  | rgb =>
      obtain ⟨red, hred, h⟩ := bind_eq_ok.mp h
      obtain ⟨green, hgreen, h⟩ := bind_eq_ok.mp h
      obtain ⟨blue, hblue, h⟩ := bind_eq_ok.mp h
      obtain ⟨alpha, halpha, h⟩ := bind_eq_ok.mp h
      obtain ⟨sample, hsample, hr⟩ := map_eq_ok.mp h
      refine ⟨?_, by simp [decimals], red, green, blue, alpha, sample, halpha, hsample, hr.symm⟩
      simp only [integers, List.forall_mem_cons, List.not_mem_nil, false_implies, implies_true]
      exact ⟨⟨red, hred⟩, ⟨green, hgreen⟩, ⟨blue, hblue⟩, trivial⟩
  | hsl =>
      obtain ⟨hue, hhue, h⟩ := bind_eq_ok.mp h
      obtain ⟨saturation, hsaturation, h⟩ := bind_eq_ok.mp h
      obtain ⟨lightness, hlightness, h⟩ := bind_eq_ok.mp h
      obtain ⟨⟨red, green, blue⟩, -, h⟩ := bind_eq_ok.mp h
      obtain ⟨alpha, halpha, h⟩ := bind_eq_ok.mp h
      obtain ⟨sample, hsample, hr⟩ := map_eq_ok.mp h
      refine ⟨?_, ?_, red, green, blue, alpha, sample, halpha, hsample, hr.symm⟩
      · simp only [integers, List.forall_mem_cons, List.not_mem_nil, false_implies, implies_true]
        exact ⟨⟨hue, hhue⟩, trivial⟩
      · simp only [decimals, List.forall_mem_cons, List.not_mem_nil, false_implies, implies_true]
        exact ⟨⟨saturation, hsaturation⟩, ⟨lightness, hlightness⟩, trivial⟩
  | oklch =>
      obtain ⟨lightness, hlightness, h⟩ := bind_eq_ok.mp h
      obtain ⟨chroma, hchroma, h⟩ := bind_eq_ok.mp h
      obtain ⟨hue, hhue, h⟩ := bind_eq_ok.mp h
      obtain ⟨alpha, halpha, h⟩ := bind_eq_ok.mp h
      obtain ⟨⟨red, green, blue⟩, -, h⟩ := bind_eq_ok.mp h
      obtain ⟨sample, hsample, hr⟩ := map_eq_ok.mp h
      refine ⟨by simp [integers], ?_, red, green, blue, alpha, sample, halpha, hsample, hr.symm⟩
      simp only [decimals, List.forall_mem_cons, List.not_mem_nil, false_implies, implies_true]
      exact ⟨⟨lightness, hlightness⟩, ⟨chroma, hchroma⟩, ⟨hue, hhue⟩, trivial⟩

/-- What is read of a function has integer channels and the alpha that its components show. -/
lemma exists_of_read (hform : form ≠ .hex) {s : Text} {sample : Sample}
    (h : form.read s = .ok (some sample)) : ∃ found rest red green blue alpha,
      Components.leftmost? form.components? s = some (found, rest) ∧
        readAlpha found.alpha = .ok alpha ∧
        Sample.ofIntegers red green blue alpha = .ok sample := by
  cases hfound : Components.leftmost? form.components? s with
  | none =>
      rw [read_of_none hform hfound] at h
      exact absurd (Except.ok.inj h) (by simp)
  | some found =>
      rw [read_of_leftmost? hform hfound] at h
      obtain ⟨-, -, red, green, blue, alpha, sample', halpha, hsample, heq⟩ :=
        exists_of_readComponents hform h
      rw [← Option.some.inj heq] at hsample
      exact ⟨found.1, found.2, red, green, blue, alpha, rfl, halpha, hsample⟩

/-- Nothing is read just if no function stands in the text. -/
lemma read_eq_none_iff (hform : form ≠ .hex) {s : Text} : form.read s = .ok none ↔
    ∀ front text rest c, form.IsFunction c text → s ≠ front ++ (text ++ rest) := by
  cases hfound : Components.leftmost? form.components? s with
  | none =>
      refine iff_of_true (read_of_none hform hfound) ?_
      rintro front text rest c h rfl
      exact leftmost?_ne_none h hfound
  | some found =>
      obtain ⟨front, text, htext, heq⟩ := leftmost?_eq_some hfound
      refine iff_of_false (fun h => ?_) fun hnone => hnone front text found.2 found.1 htext heq
      rw [read_of_leftmost? hform hfound] at h
      obtain ⟨-, -, -, -, -, -, sample, -, -, hnone⟩ := exists_of_readComponents hform h
      exact absurd hnone (by simp)

end Form

/-! ### The numbers of the components -/

/-- An alpha is digits and points, or these and a percent sign.  It is the number that they are, or
a hundredth of it. -/
lemma readAlpha_of_isPercentage {a : Text} (h : IsPercentage a) : ∃ t, IsDecimal t ∧
    (a = t ∧ readAlpha (some a) = (if holdsNumber t
        then .ok (some (decimalNumeral t).toBinary64) else .error (.notNumber t)) ∨
      a = t ++ ['%'] ∧ readAlpha (some a) = if holdsNumber t
        then .ok (some ((decimalNumeral t).toBinary64 / 100)) else .error (.notNumber t)) := by
  cases h with
  | plain h =>
      refine ⟨a, h, .inl ⟨rfl, ?_⟩⟩
      rw [readAlpha_of_isDecimal h, readNumber_of_isDecimal h]
      split_ifs <;> rfl
  | @percent t h =>
      refine ⟨t, h, .inr ⟨rfl, ?_⟩⟩
      rw [readAlpha_append h, readNumber_of_isDecimal h]
      split_ifs <;> rfl

/-- There is an alpha just if the function has an alpha part. -/
lemma eq_none_of_readAlpha {s : Option Text} {alpha : Option Binary64}
    (h : readAlpha s = .ok alpha) : alpha = none ↔ s = none := by
  cases s with
  | none =>
      rw [readAlpha] at h
      exact iff_of_true (Except.ok.inj h).symm rfl
  | some s =>
      rw [readAlpha] at h
      obtain ⟨a, -, rfl⟩ := map_eq_ok.mp h
      exact iff_of_false (by simp) (by simp)

/-! ### What is read of a text -/

/-- **What is read of a text.**  Nothing is read just if no function of the form stands in the text.
Otherwise the colour is that of the components of the leftmost function, which is one text and shows
them in one way.  A component of an integer is rejected just if it has more than 4300 digits, and a
component of digits and points just if it has no digit or more than one point.  An alpha of such
digits and points is taken as it is, or divided by one hundred if a percent sign ends it; the colour
has an alpha just if the function has one. -/
theorem Form.read_function [Elementary] (hform : form ≠ .hex) (s : Text) :
    (form.read s = .ok none ↔
      ∀ front text rest c, form.IsFunction c text → s ≠ front ++ (text ++ rest)) ∧
    ((∃ front text rest c, form.IsFunction c text ∧ s = front ++ (text ++ rest)) →
      ∃ front text rest c, form.IsLeftmost s front text rest c ∧
        (∀ front' text' rest' c', form.IsLeftmost s front' text' rest' c' →
          front' = front ∧ text' = text ∧ rest' = rest ∧ c' = c) ∧
        (∀ c', form.IsFunction c' text → c' = c) ∧
        form.read s = form.readComponents c ∧
        (∀ t ∈ form.integers c, IsInteger t ∧
          readInteger t = if maxIntegerDigits < t.countP Char.isDigit
            then .error (.tooManyDigits (t.countP Char.isDigit)) else .ok (integerValue t)) ∧
        (∀ t ∈ form.decimals c, IsDecimal t ∧
          readNumber t = if holdsNumber t
            then .ok (decimalNumeral t).toBinary64 else .error (.notNumber t)) ∧
        (∀ a ∈ c.alpha, ∃ t, IsDecimal t ∧
          (a = t ∧ readAlpha (some a) = (if holdsNumber t
              then .ok (some (decimalNumeral t).toBinary64) else .error (.notNumber t)) ∨
            a = t ++ ['%'] ∧ readAlpha (some a) = if holdsNumber t
              then .ok (some ((decimalNumeral t).toBinary64 / 100)) else .error (.notNumber t))) ∧
        ∀ r, form.read s = .ok r →
          (∀ t ∈ form.integers c, t.countP Char.isDigit ≤ maxIntegerDigits) ∧
          (∀ t ∈ form.decimals c, holdsNumber t) ∧
          ∃ sample, r = some sample ∧ readAlpha c.alpha = .ok sample.alpha ∧
            (sample.alpha = none ↔ c.alpha = none)) := by
  refine ⟨read_eq_none_iff hform, ?_⟩
  rintro ⟨front₀, text₀, rest₀, c₀, h₀, hs⟩
  have hne : Components.leftmost? form.components? s ≠ none := hs ▸ leftmost?_ne_none h₀
  obtain ⟨⟨c, rest⟩, hfound⟩ := Option.ne_none_iff_exists'.mp hne
  obtain ⟨front, text, hleftmost⟩ := isLeftmost_of_leftmost? hfound
  have htext := hleftmost.isFunction
  have hinteger := fun t ht => readInteger_of_isInteger (htext.isInteger t ht)
  have hdecimal := fun t ht => readNumber_of_isDecimal (htext.isDecimal t ht)
  have hread := read_of_leftmost? hform hfound
  refine ⟨front, text, rest, c, hleftmost, fun _ _ _ _ h' => h'.unique hleftmost,
    fun c' h' => h'.components_unique htext, hread,
    fun t ht => ⟨htext.isInteger t ht, hinteger t ht⟩,
    fun t ht => ⟨htext.isDecimal t ht, hdecimal t ht⟩,
    fun a ha => readAlpha_of_isPercentage (htext.isPercentage a ha), fun r hr => ?_⟩
  rw [hread] at hr
  obtain ⟨hintegers, hdecimals, red, green, blue, alpha, sample, halpha, hsample, rfl⟩ :=
    exists_of_readComponents hform hr
  obtain ⟨-, rfl⟩ := Sample.isIntegral_of_ofIntegers hsample
  refine ⟨fun t ht => ?_, fun t ht => ?_, sample, rfl, halpha, eq_none_of_readAlpha halpha⟩
  · -- an integer of too many digits would not have been read
    obtain ⟨n, hn⟩ := hintegers t ht
    rw [hinteger t ht] at hn
    by_contra hmany
    rw [if_pos (not_le.mp hmany)] at hn
    exact absurd hn (by simp)
  · obtain ⟨x, hx⟩ := hdecimals t ht
    rw [hdecimal t ht] at hx
    by_contra hnot
    rw [if_neg hnot] at hx
    exact absurd hx (by simp)

/-- Of two functions in a text the first one is read. -/
theorem Form.read_firstOfTwo :
    let s := "in rgb(1, 2, 3 / 50%) or rgb(4, 5, 6)".toList
    let c : Components := ⟨"1".toList, "2".toList, "3".toList, some "50%".toList⟩
    Form.rgb ≠ .hex ∧
      Form.rgb.IsLeftmost s "in ".toList "rgb(1, 2, 3 / 50%)".toList " or rgb(4, 5, 6)".toList c ∧
      Form.rgb.read s = Form.rgb.readComponents c := by
  intro s c
  have hs : s = "in ".toList ++ ("rgb(1, 2, 3 / 50%)".toList ++ " or rgb(4, 5, 6)".toList) := by
    decide
  have hc : Form.rgb.IsFunction c "rgb(1, 2, 3 / 50%)".toList := by
    obtain ⟨text, htext, heq⟩ := Form.components?_iff.mp
      (by decide : Form.rgb.components? "rgb(1, 2, 3 / 50%)".toList = some (c, []))
    rwa [heq, List.append_nil]
  obtain ⟨front, text, rest, c', hleftmost, -, -, hread, -⟩ :=
    (Form.read_function (by decide) s).2 ⟨_, _, _, c, hc, hs⟩
  obtain ⟨front', text', hfound⟩ := isLeftmost_of_leftmost?
    (by decide : Components.leftmost? Form.rgb.components? s
      = some (c, " or rgb(4, 5, 6)".toList))
  obtain ⟨rfl, rfl, rfl, rfl⟩ := hleftmost.unique hfound
  have htext : front ++ text = "in ".toList ++ "rgb(1, 2, 3 / 50%)".toList := by
    refine (List.append_left_inj " or rgb(4, 5, 6)".toList).mp ?_
    rw [List.append_assoc, List.append_assoc, ← hs, ← hfound.eq]
  refine ⟨by decide, ?_, hread⟩
  obtain ⟨rfl, rfl, -⟩ := hfound.isFunction.unique_suffix hc htext
  exact hfound

end Swatch
