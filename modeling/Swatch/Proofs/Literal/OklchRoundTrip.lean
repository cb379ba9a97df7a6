import Swatch.Proofs.Color.OklchError
import Swatch.Proofs.Decimal.Trimmed
import Swatch.Proofs.Literal.HslRoundTrip
/-!
Colours by way of `oklch` functions.

A written function has a lightness in hundredths of percents, a chroma in steps of `10 ^ -4` and a
hue in hundredths of degrees.  This moves no channel by more than one byte from what exact polar
coordinates would give back.  What they give back are not the channels of the colour but its
tristimulus values, though, as if these were the light of the primaries: the way to the coordinates
takes the responses of the cones of the tristimulus values, and the way back does not undo this
step.  White comes back short of red.

* `Bytes.exists_oklch`: the polar coordinates of an opaque colour.
* `Oklch.exists_hasUnits`, `Oklch.HasUnits.write_eq`: how these are rounded and written.
* `Oklch.sample_textWith`: what is read of that.
* `Color.oklch_roundTrip`: a colour of six hexadecimal digits by way of its `oklch` function.
-/

namespace Swatch

open Binary64 Decimal Parts

/-! ### The polar coordinates of bytes -/

section Coordinates

variable [Elementary] [Elementary.IsAccurate]

/-- The lightness of black is zero. -/
lemma Linear.toOklch_lightness_black :
    (Linear.mk (zero false) (zero false) (zero false)).toXyz.toOklab.toOklch.lightness
      = zero false := by
  have hxyz : (Linear.mk (zero false) (zero false) (zero false)).toXyz
      = ⟨zero false, zero false, zero false⟩ := by decide +kernel
  have hlong : 0.4122214708 * zero false + 0.5363325363 * zero false + 0.0514459929 * zero false
      = zero false := by decide +kernel
  have hmedium : 0.2119034982 * zero false + 0.6806995451 * zero false + 0.1073969566 * zero false
      = zero false := by decide +kernel
  have hshort : 0.0883024619 * zero false + 0.2817188376 * zero false + 0.6299787005 * zero false
      = zero false := by decide +kernel
  rw [hxyz, Xyz.toOklab, Oklab.toOklch]
  simp only [hlong, hmedium, hshort, Elementary.IsAccurate.cbrt_zero]
  decide +kernel

namespace Bytes

variable (c : Bytes)

/-- The light of a channel. -/
lemma exists_light {n : ℤ} (hn : 0 ≤ n ∧ n ≤ 255) : ∃ x, linearOfByte (ofInt n) = .ok x ∧
    Between 0 1 x ∧ (n = 0 → x = zero false) ∧ (n ≠ 0 → 1 / 2 ^ 19 ≤ x.value) := by
  obtain ⟨hfinite, hvalue⟩ := value_ofInt (n := n) (by omega)
  by_cases hzero : n = 0
  · subst hzero
    refine ⟨zero false, ?_, ⟨rfl, ?_, ?_⟩, fun _ => rfl, fun h => absurd rfl h⟩
    · rw [linearOfByte, if_pos (by decide +kernel)]
      decide +kernel
    · rw [value_zero]
    · rw [value_zero]
      exact zero_le_one
  · have hmem : Between 1 255 (ofInt n) := by
      refine ⟨hfinite, ?_, ?_⟩
      · rw [hvalue]
        exact_mod_cast (by omega : 1 ≤ n)
      · rw [hvalue]
        exact_mod_cast hn.2
    obtain ⟨x, hx, hlight⟩ := exists_linearOfByte hmem
    refine ⟨x, hx, hlight.mono (by positivity) le_rfl, fun h => absurd h hzero, fun _ => ?_⟩
    exact hlight.le_value

/-- The polar coordinates of an opaque colour. -/
lemma exists_oklch : ∃ light : Linear,
    (Between 0 1 light.red ∧ Between 0 1 light.green ∧ Between 0 1 light.blue) ∧
    (c.sample none).toXyz = .ok light.toXyz ∧
    Oklch.ofSample (c.sample none) = .ok light.toXyz.toOklab.toOklch ∧
    Between 0 (3 / 2) light.toXyz.toOklab.toOklch.lightness ∧
    Between 0 1 light.toXyz.toOklab.toOklch.chroma ∧
    Between 0 360 light.toXyz.toOklab.toOklch.hue := by
  obtain ⟨red, hred, hr, hr0, hr1⟩ := exists_light c.red_mem
  obtain ⟨green, hgreen, hg, hg0, hg1⟩ := exists_light c.green_mem
  obtain ⟨blue, hblue, hb, hb0, hb1⟩ := exists_light c.blue_mem
  refine ⟨⟨red, green, blue⟩, ⟨hr, hg, hb⟩, ?_, ?_, ?_⟩
  · rw [Sample.toXyz]
    exact bind_eq_ok.mpr ⟨_, hred, bind_eq_ok.mpr ⟨_, hgreen, bind_eq_ok.mpr ⟨_, hblue, rfl⟩⟩⟩
  · rw [Oklch.ofSample]
    exact bind_eq_ok.mpr ⟨_, hred, bind_eq_ok.mpr ⟨_, hgreen, bind_eq_ok.mpr ⟨_, hblue, rfl⟩⟩⟩
  · obtain ⟨hlightness, hchroma, hhue⟩ := @Linear.toOklch_mem _ _ ⟨red, green, blue⟩ hr hg hb
    refine ⟨⟨hlightness.isFinite, ?_, hlightness.value_le⟩, hchroma, hhue⟩
    by_cases hblack : c.red = 0 ∧ c.green = 0 ∧ c.blue = 0
    · rw [hr0 hblack.1, hg0 hblack.2.1, hb0 hblack.2.2, Linear.toOklch_lightness_black, value_zero]
    · refine Linear.toOklch_lightness_nonneg hr hg hb ?_
      by_cases hr' : c.red = 0
      · by_cases hg' : c.green = 0
        · exact Or.inr (Or.inr (hb1 fun hb' => hblack ⟨hr', hg', hb'⟩))
        · exact Or.inr (Or.inl (hg1 hg'))
      · exact Or.inl (hr1 hr')

end Bytes

end Coordinates

/-! ### Writing and reading polar coordinates -/

namespace Oklch

/-- The alpha behind a slash, if there is one. -/
def slashTail : Option Text → Text
  | none => []
  | some alpha => " / ".toList ++ alpha

/-- The `oklch` function of three numbers, and an alpha that may follow them. -/
def textWith (lightness chroma hue : Text) (alpha : Option Text) : Text :=
  "oklch".toList ++ '(' :: (lightness ++ '%' :: ' ' :: (chroma ++ ' ' :: (hue ++
    (slashTail alpha ++ [')']))))

/-- The `oklch` function of three numbers. -/
def text (lightness chroma hue : Text) : Text :=
  "oklch".toList ++ '(' :: (lightness ++ '%' :: ' ' :: (chroma ++ ' ' :: (hue ++ [')'])))

section Function

variable {lightness chroma hue : Text} {alpha : Option Text}

lemma isFunction_textWith (hlightness : IsDecimal lightness) (hchroma : IsDecimal chroma)
    (hhue : IsDecimal hue) (halpha : ∀ a ∈ alpha, IsPercentage a) :
    IsFunction ⟨lightness, chroma, hue, alpha⟩ (textWith lightness chroma hue alpha) := by
  have hblanks : IsBlanks [] := by simp [IsBlanks]
  have hblank : IsRun isBlank [' '] := ⟨by simp, by decide⟩
  have hname : "oklch".toList ∈ Form.oklch.keywords := by decide
  have hunit : ([] : Text) = [] ∨ [] = "deg".toList := Or.inl rfl
  have hpart : IsAlphaPart (· = '/') alpha (slashTail alpha) := by
    cases alpha with
    | none => exact .none
    | some a =>
        have hpart : IsAlphaPart (· = '/') (some a) ([' '] ++ '/' :: ([' '] ++ a)) :=
          .some (by simp [IsBlanks, isBlank]) (by decide) (by simp [IsBlanks, isBlank])
            (halpha a rfl)
        exact hpart
  exact .intro hname hblanks hlightness (Or.inr rfl) hblank hchroma hblank hhue hunit hpart hblanks

lemma isFunction_text (hlightness : IsDecimal lightness) (hchroma : IsDecimal chroma)
    (hhue : IsDecimal hue) :
    IsFunction ⟨lightness, chroma, hue, none⟩ (text lightness chroma hue) :=
  isFunction_textWith hlightness hchroma hhue (by simp)

end Function

/-- The lightness is written in hundredths of percents. -/
lemma exists_lightness {x : Binary64} (hx : Between 0 (3 / 2) x) :
    ∃ n y, (x * 100).fixedText (2 : Nat) = .ok (pointText 2 n) ∧
      readNumber (Text.dropEnd ".00".toList (pointText 2 n)) = .ok y ∧ Between 0 2 (y / 100) ∧
      |(y / 100).value - x.value| ≤ 51 / 10 ^ 6 := by
  have hself : NearWithin 0 2 x.value x :=
    nearWithin_of_between ⟨hx.isFinite, hx.le_value, by
      push_cast
      linarith [hx.value_le]⟩
  have hvalue : (OfNat.ofNat 100 : Binary64).value = 100 := by
    exact_mod_cast value_ofNat (n := 100) (by norm_num)
  have hround := isRounded_mul (y := 100) hx.isFinite (isFinite_ofNat (by norm_num))
  rw [hvalue] at hround
  have hnear := hround.near (k := 0) (q := x.value * 100) (by simp) (by norm_num)
    (abs_le.mpr ⟨by linarith [hx.le_value], by linarith [hx.value_le]⟩)
  have herror := abs_le.mp hnear.abs_sub_le
  have hsmall : roundoff ≤ 1 / 10 ^ 9 := by norm_num [roundoff]
  push_cast at herror
  have hmem : Between 0 (151 : Nat) (x * 100) := by
    refine ⟨hnear.isFinite, hround.value_nonneg (by linarith [hx.le_value]), ?_⟩
    push_cast
    linarith [hx.value_le, herror.2]
  obtain ⟨n, y, ht, -, hread, hy, hshown⟩ :=
    exists_shown hmem two_pos (by norm_num) (by norm_num) shows_dropEnd
  have hyhigh := hy.value_le
  push_cast at hyhigh
  have hquotient := (near_self hy.isFinite).div_ofNat (n := 100) (by norm_num) (by norm_num)
    (by norm_num) (abs_le.mpr ⟨by linarith [hy.le_value], by linarith⟩)
  have herror' := abs_le.mp hquotient.abs_sub_le
  push_cast at herror'
  rw [abs_le] at hshown
  refine ⟨n, y, ht, hread, ⟨hquotient.isFinite, ?_, ?_⟩, ?_⟩
  · have hpos : (0 : ℚ) < (OfNat.ofNat 100 : Binary64).value := by
      rw [hvalue]
      norm_num
    exact (isRounded_div (y := 100) hy.isFinite (isFinite_ofNat (by norm_num))
      hpos.ne').value_nonneg (div_nonneg hy.le_value hpos.le)
  · linarith [herror'.2]
  · rw [abs_le]
    constructor <;> linarith [herror.1, herror.2, herror'.1, herror'.2, hshown.1, hshown.2]

/-- The numbers of units to which polar coordinates are rounded. -/
structure HasUnits (c : Oklch) (lightness chroma hue : Nat) : Prop where
  lightness_eq : (c.lightness * 100).fixedText 2 = .ok (pointText 2 lightness)
  chroma_eq : c.chroma.fixedText 4 = .ok (pointText 4 chroma)
  hue_eq : c.hue.fixedText 2 = .ok (pointText 2 hue)
  hue_le : hue ≤ 36000

/-- Polar coordinates of moderate size are rounded to numbers of units, from which rounded ones are
read. -/
lemma exists_hasUnits {c : Oklch} (hlightness : Between 0 (3 / 2) c.lightness)
    (hchroma : Between 0 1 c.chroma) (hhue : Between 0 360 c.hue) :
    ∃ (lightness chroma hue : Nat) (x : Binary64) (p : Oklch), c.HasUnits lightness chroma hue ∧
      (readNumber (Text.dropEnd ".00".toList (pointText 2 lightness)) = .ok x ∧
        p.lightness = x / 100) ∧
      readNumber (trimFraction (pointText 4 chroma)) = .ok p.chroma ∧
      readNumber (Text.dropEnd ".00".toList (pointText 2 hue)) = .ok p.hue ∧ c.IsRounding p := by
  obtain ⟨lightness, x, hl, hlread, hlmem, hlnear⟩ := exists_lightness hlightness
  have hchroma' : Between 0 (1 : Nat) c.chroma := by exact_mod_cast hchroma
  have hhue' : Between 0 (360 : Nat) c.hue := by exact_mod_cast hhue
  obtain ⟨chroma, y, hc, -, hcread, hcmem, hcnear⟩ :=
    exists_shown hchroma' four_pos (by norm_num) (by norm_num) (shows_trimFraction 4)
  obtain ⟨hue, z, hh, hle, hhread, hhmem, hhnear⟩ :=
    exists_shown hhue' two_pos (by norm_num) (by norm_num) shows_dropEnd
  refine ⟨lightness, chroma, hue, x, ⟨x / 100, y, z⟩, ⟨hl, hc, hh, hle⟩, ⟨hlread, rfl⟩, hcread,
    hhread, ⟨hlmem, by exact_mod_cast hcmem, ?_, hlnear, hcnear.trans ?_, hhnear.trans ?_⟩⟩
  · exact Between.mono (by exact_mod_cast hhmem) le_rfl (by norm_num)
  · norm_num [roundoff]
  · norm_num [roundoff]

/-- How such polar coordinates are written. -/
lemma HasUnits.write_eq [Elementary] {c : Oklch} {lightness chroma hue : Nat}
    (h : c.HasUnits lightness chroma hue) {s : Sample} (hs : ofSample s = .ok c)
    {alpha : Option Text} (halpha : alphaPart s = .ok (slashTail alpha)) :
    write s true = .ok (textWith (Text.dropEnd ".00".toList (pointText 2 lightness))
      (trimFraction (pointText 4 chroma)) (Text.dropEnd ".00".toList (pointText 2 hue)) alpha) := by
  rw [write]
  refine bind_eq_ok.mpr ⟨c, hs, bind_eq_ok.mpr ⟨_, h.lightness_eq, bind_eq_ok.mpr ⟨_, h.chroma_eq,
    bind_eq_ok.mpr ⟨_, h.hue_eq, bind_eq_ok.mpr ⟨_, halpha, ?_⟩⟩⟩⟩⟩
  have hname : "oklch(".toList = "oklch".toList ++ ['('] := rfl
  simp only [if_true, hname, textWith, List.append_assoc, List.cons_append, List.nil_append]
  rfl

/-- Polar coordinates of moderate size are written as three numbers, from which rounded ones are
read. -/
lemma exists_write_of_ofSample [Elementary] {s : Sample} {c : Oklch} (hs : ofSample s = .ok c)
    (htranslucent : s.isTranslucent = false) (hlightness : Between 0 (3 / 2) c.lightness)
    (hchroma : Between 0 1 c.chroma) (hhue : Between 0 360 c.hue) :
    ∃ (lightness chroma hue : Text) (x : Binary64) (p : Oklch),
      write s true = .ok (text lightness chroma hue) ∧
      (IsDecimal lightness ∧ IsDecimal chroma ∧ IsDecimal hue) ∧
      (readNumber lightness = .ok x ∧ p.lightness = x / 100) ∧ readNumber chroma = .ok p.chroma ∧
      readNumber hue = .ok p.hue ∧ c.IsRounding p := by
  obtain ⟨lightness, chroma, hue, x, p, hunits, hl, hc, hh, hrounding⟩ :=
    exists_hasUnits hlightness hchroma hhue
  have halpha : alphaPart s = .ok (slashTail none) := Sample.alphaPart_eq_nil htranslucent
  exact ⟨_, _, _, x, p, hunits.write_eq hs halpha,
    ⟨(shows_dropEnd _).isDecimal, (shows_trimFraction 4 _).isDecimal, (shows_dropEnd _).isDecimal⟩,
    hl, hc, hh, hrounding⟩

/-- What an `oklch` function denotes, with the alpha that it shows. -/
lemma sample_textWith [Elementary] {lightness chroma hue : Text} {alpha : Option Text}
    (hlightness : IsDecimal lightness) (hchroma : IsDecimal chroma) (hhue : IsDecimal hue)
    (halpha : ∀ a ∈ alpha, IsPercentage a) {x : Binary64} {p : Oklch}
    (hl : readNumber lightness = .ok x ∧ p.lightness = x / 100)
    (hc : readNumber chroma = .ok p.chroma) (hh : readNumber hue = .ok p.hue)
    {a : Option Binary64} (ha : Swatch.readAlpha alpha = .ok a) {n : Channel → ℤ}
    (hn : p.toBytes = .ok (n .red, n .green, n .blue))
    (hfinite : ∀ x, (ofInt (n x)).isFinite = true) :
    (Literal.mk .oklch (textWith lightness chroma hue alpha)).sample
      = .ok (some ⟨ofInt (n .red), ofInt (n .green), ofInt (n .blue), a⟩) := by
  have hfunction : Form.oklch.IsFunction ⟨lightness, chroma, hue, alpha⟩ _ :=
    isFunction_textWith hlightness hchroma hhue halpha
  have hfound := hfunction.leftmost?_eq
  rw [Form.components?] at hfound
  have hbytes : (Oklch.mk (x / 100) p.chroma p.hue).toBytes
      = .ok (n .red, n .green, n .blue) := by
    rw [← hl.2]
    exact hn
  rw [Literal.sample_eq, hfunction.readText_eq, Form.read, Oklch.read, hfound]
  exact bind_eq_ok.mpr ⟨x, hl.1, bind_eq_ok.mpr ⟨p.chroma, hc, bind_eq_ok.mpr ⟨p.hue, hh,
    bind_eq_ok.mpr ⟨a, ha, bind_eq_ok.mpr ⟨_, hbytes, map_some_eq_ok.mpr
      (Sample.ofIntegers_eq_ok_iff.mpr
        ⟨⟨hfinite .red, hfinite .green, hfinite .blue⟩, rfl⟩)⟩⟩⟩⟩⟩

/-- What an `oklch` function denotes. -/
lemma sample_text [Elementary] {lightness chroma hue : Text} (hlightness : IsDecimal lightness)
    (hchroma : IsDecimal chroma) (hhue : IsDecimal hue) {x : Binary64} {p : Oklch}
    (hl : readNumber lightness = .ok x ∧ p.lightness = x / 100)
    (hc : readNumber chroma = .ok p.chroma) (hh : readNumber hue = .ok p.hue) {n : Channel → ℤ}
    (hn : p.toBytes = .ok (n .red, n .green, n .blue))
    (hfinite : ∀ x, (ofInt (n x)).isFinite = true) :
    (Literal.mk .oklch (text lightness chroma hue)).sample
      = .ok (some ⟨ofInt (n .red), ofInt (n .green), ofInt (n .blue), none⟩) := by
  have htext : text lightness chroma hue = textWith lightness chroma hue none := rfl
  rw [htext]
  exact sample_textWith hlightness hchroma hhue (by simp) hl hc hh rfl hn hfinite

end Oklch

/-! ### There and back -/

namespace Color

/-- **By way of an `oklch` function**: a colour of six hexadecimal digits converts to one, and that
converts to an `rgb` function whose channels are, up to one, the bytes of the tristimulus values of
the colour.  So every channel comes back within one if these are the channels of the colour, and
only if they are within two of them. -/
theorem oklch_roundTrip [Elementary] [Elementary.IsAccurate] {r r' g g' b b' : Char}
    (hdigits : ∀ d ∈ [r, r', g, g', b, b'], isHexDigit d = true) :
    ∃ (c : Bytes) (function : Text) (w n : Channel → ℤ),
      (c.red = hexValue [r, r'] ∧ c.green = hexValue [g, g'] ∧ c.blue = hexValue [b, b']) ∧
      (c.sample none).toXyz >>= Xyz.toBytes = .ok (w .red, w .green, w .blue) ∧
      (convert? ⟨Form.oklch.name, true⟩ ['#', r, r', g, g', b, b']).value = some function ∧
      (convert? ⟨Form.rgb.name, true⟩ function).value
        = some (Rgb.text (n .red) (n .green) (n .blue)) ∧
      (∀ x, |n x - w x| ≤ 1) ∧
      ((∀ x, w x = c.channel x) → ∀ x, |n x - c.channel x| ≤ 1) ∧
      ((∀ x, |n x - c.channel x| ≤ 1) → ∀ x, |w x - c.channel x| ≤ 2) := by
  obtain ⟨c, hc, hsample⟩ := Hex.exists_bytes hdigits
  obtain ⟨light, ⟨hr, hg, hb⟩, hxyz, hlch, hlightness, hchroma, hhue⟩ := c.exists_oklch
  obtain ⟨lightness, chroma, hue, x, p, hwrite, ⟨hl, hch, hh⟩, hlread, hcread, hhread, hrounding⟩ :=
    Oklch.exists_write_of_ofSample hlch rfl hlightness hchroma hhue
  obtain ⟨w, n, hw, hn, hnear⟩ := hrounding.exists_toBytes hr hg hb
  have hfinite (x : Channel) : (ofInt (n x)).isFinite = true := isFinite_ofInt (hnear x).1
  have hclose (x : Channel) : |n x - w x| ≤ 1 := (hnear x).2
  have hread := Oklch.sample_text hl hch hh hlread hcread hhread hn hfinite
  have hhex : IsLiteral [] .hex ['#', r, r', g, g', b, b'] :=
    .hex (by simp) (by simp) hdigits (Or.inr (Text.stops_nil _))
  have hfunction : Form.oklch.IsFunction _ (Oklch.text lightness chroma hue) :=
    Oklch.isFunction_text hl hch hh
  refine ⟨c, Oklch.text lightness chroma hue, w, n, hc, bind_eq_ok.mpr ⟨_, hxyz, hw⟩, ?_, ?_,
    hclose, fun heq x => ?_, fun hkept x => ?_⟩
  · refine value_convert?_eq_some_iff.mpr ⟨_, Token.ofWhole?_of_isLiteral hhex, ?_⟩
    rw [Literal.outcome_of_sample hsample c.clamped_sample]
    exact map_some_eq_ok.mpr hwrite
  · refine value_convert?_eq_some_iff.mpr
      ⟨_, Token.ofWhole?_of_isLiteral (hfunction.isLiteral []), ?_⟩
    have hclamped := Sample.clamped_integers (hnear .red).1 (hnear .green).1 (hnear .blue).1 none
    rw [Literal.outcome_of_sample hread hclamped]
    exact map_some_eq_ok.mpr
      (Rgb.write_integers (hnear .red).1 (hnear .green).1 (hnear .blue).1)
  · rw [← heq x]
    exact hclose x
  · calc |w x - c.channel x| ≤ |w x - n x| + |n x - c.channel x| := abs_sub_le _ _ _
      _ ≤ 1 + 1 := add_le_add (by rw [abs_sub_comm]; exact hclose x) (hkept x)

/-- The red of white comes back as its first tristimulus value, up to one. -/
theorem oklch_roundTrip_white :
    (∀ d ∈ ['f', 'f', 'f', 'f', 'f', 'f'], isHexDigit d = true) ∧
      ∃ (function : Text) (n : Channel → ℤ),
        (convert? ⟨Form.oklch.name, true⟩ "#ffffff".toList).value = some function ∧
        (convert? ⟨Form.rgb.name, true⟩ function).value
          = some (Rgb.text (n .red) (n .green) (n .blue)) ∧
        |n .red - 249| ≤ 1 := by
  have hdigits : ∀ d ∈ ['f', 'f', 'f', 'f', 'f', 'f'], isHexDigit d = true := by decide
  obtain ⟨c, function, w, n, ⟨hred, hgreen, hblue⟩, hw, hoklch, hrgb, hclose, -, -⟩ :=
    oklch_roundTrip hdigits
  have hwhite : c.sample none = ⟨ofInt 255, ofInt 255, ofInt 255, none⟩ := by
    rw [Bytes.sample, hred, hgreen, hblue]
    rfl
  have hvalues : (Sample.mk (ofInt 255) (ofInt 255) (ofInt 255) none).toXyz >>= Xyz.toBytes
      = .ok (249, 255, 255) := by decide +kernel
  rw [hwhite, hvalues] at hw
  have hfirst : w .red = 249 := (Prod.mk.inj (Except.ok.inj hw)).1.symm
  have hnear := hclose .red
  rw [hfirst] at hnear
  exact ⟨hdigits, function, n, hoklch, hrgb, hnear⟩

/-- White comes back short of red. -/
theorem white_losesRed :
    (convert? ⟨Form.oklch.name, true⟩ "#ffffff".toList).value
        = some "oklch(99.86% 0.0142 261.46)".toList ∧
      (convert? ⟨Form.rgb.name, true⟩ "oklch(99.86% 0.0142 261.46)".toList).value
        = some (Rgb.text 249 255 255) ∧
      ¬ |(249 : ℤ) - hexValue "ff".toList| ≤ 1 := by
  refine ⟨by decide +kernel, by decide +kernel, by decide +kernel⟩

end Color

end Swatch
